import Mathlib.Data.List.Perm.Basic
import Synopsis.Comparison
import Synopsis.Proofs.Nodes

/-!
Equality of trees. Where their leaves hold nothing, truth values, numbers or texts, any two trees can be
compared, and equality is an equivalence: leaves are equal when their fields stand for the same
contents, alternatives when they pair off in some order, and other branches when they do in order.
-/
namespace Synopsis

/-- The items of two lists pair off, the second list taken in some order. -/
def PairOff {α β : Type} (R : α → β → Prop) (xs : List α) (ys : List β) : Prop :=
  ∃ zs : List β, zs.Perm ys ∧ List.Forall₂ R xs zs

namespace PairOff

variable {α β : Type} {R : α → β → Prop} {xs xs' : List α} {ys ys' : List β}

theorem of_forall₂ (h : List.Forall₂ R xs ys) : PairOff R xs ys := ⟨ys, .refl ys, h⟩

theorem append (h : PairOff R xs ys) (h' : PairOff R xs' ys') :
    PairOff R (xs ++ xs') (ys ++ ys') := by
  obtain ⟨zs, hp, hf⟩ := h
  obtain ⟨zs', hp', hf'⟩ := h'
  exact ⟨zs ++ zs', hp.append hp', List.rel_append hf hf'⟩

theorem of_perm (hp : xs.Perm xs') (h : PairOff R xs' ys) : PairOff R xs ys := by
  obtain ⟨zs, hp', hf⟩ := h
  obtain ⟨ws, hf', hp''⟩ := List.perm_comp_forall₂ hp hf
  exact ⟨ws, hp''.trans hp', hf'⟩

theorem flip (h : PairOff R xs ys) : PairOff (fun y x => R x y) ys xs := by
  obtain ⟨zs, hp, hf⟩ := h
  exact of_perm hp.symm (of_forall₂ hf.flip)

end PairOff

section Pairwise

variable {α β γ : Type} {R : α → β → Prop} {xs : List α} {ys : List β}

theorem forall₂_imp_of_mem {S : α → β → Prop} (h : List.Forall₂ R xs ys)
    (himp : ∀ x ∈ xs, ∀ y ∈ ys, R x y → S x y) : List.Forall₂ S xs ys := by
  rw [List.forall₂_iff_zip] at h ⊢
  refine ⟨h.1, fun hxy => ?_⟩
  have hmem := List.of_mem_zip hxy
  exact himp _ hmem.1 _ hmem.2 (h.2 hxy)

theorem forall₂_trans_of_mem {S : β → γ → Prop} {T : α → γ → Prop} {zs : List γ}
    (h : List.Forall₂ R xs ys) (h' : List.Forall₂ S ys zs)
    (ht : ∀ x ∈ xs, ∀ y ∈ ys, ∀ z ∈ zs, R x y → S y z → T x z) : List.Forall₂ T xs zs := by
  induction h generalizing zs with
  | nil => cases h'; exact .nil
  | @cons x y xs ys hxy h ih =>
    cases h' with
    | @cons _ z _ zs hyz h' =>
      refine .cons (ht x (by simp) y (by simp) z (by simp) hxy hyz) (ih h' ?_)
      intro x hx y hy z hz
      exact ht x (by simp [hx]) y (by simp [hy]) z (by simp [hz])

/-- In a list paired off with another one, the partner of an item can be freed for another item that
suits it. -/
theorem exchange (h : List.Forall₂ R xs ys) {y : β} (hy : y ∈ ys) :
    ∃ x ∈ xs, R x y ∧ ∀ z, R x z → ∃ zs, List.Forall₂ R xs zs ∧ (y :: zs).Perm (z :: ys) := by
  induction h with
  | nil => simp at hy
  | @cons a b xs ys hab h ih =>
    rcases List.mem_cons.mp hy with rfl | hy
    · exact ⟨a, by simp, hab, fun z hz => ⟨z :: ys, .cons hz h, .swap z y ys⟩⟩
    · obtain ⟨x, hx, hxy, hfree⟩ := ih hy
      refine ⟨x, by simp [hx], hxy, fun z hz => ?_⟩
      obtain ⟨zs, hzs, hp⟩ := hfree z hz
      refine ⟨b :: zs, .cons hab hzs, ?_⟩
      exact (List.Perm.swap b y zs).trans ((hp.cons b).trans (.swap z b ys))

end Pairwise

namespace Datum

/-- What a scalar stands for. -/
inductive Content where
  | nothing
  | text (s : String)
  | number (m : Magnitude)

def content? (d : Datum) : Option Content :=
  match d.magnitude?, d with
  | some m, _ => some (.number m)
  | none, null => some .nothing
  | none, text s => some (.text s)
  | none, _ => none

/-- Nothing, a truth value, a number or a text. -/
def IsScalar : Datum → Prop
  | null | bool _ | int _ | text _ => True
  | float x => x.isNaN = false
  | _ => False

instance : DecidablePred IsScalar := fun d => by
  cases d <;> unfold IsScalar <;> infer_instance

theorem IsScalar.magnitude_cases {d : Datum} (h : d.IsScalar) :
    d = null ∨ (∃ s, d = text s) ∨ ∃ m, m ≠ .nan ∧ d.magnitude? = some m := by
  cases d with
  | null => exact .inl rfl
  | text s => exact .inr (.inl ⟨s, rfl⟩)
  | bool b => exact .inr (.inr ⟨_, by simp, rfl⟩)
  | int n => exact .inr (.inr ⟨_, by simp, rfl⟩)
  | float x =>
    have hx : x.isNaN = false := h
    cases hi : x.isInfinite with
    | true => exact .inr (.inr ⟨.infinite x.negative, by simp, by simp [magnitude?, hx, hi]⟩)
    | false => exact .inr (.inr ⟨.finite x.scaled, by simp, by simp [magnitude?, hx, hi]⟩)
  | _ => cases h

theorem content?_of_magnitude {d : Datum} {m : Magnitude} (h : d.magnitude? = some m) :
    d.content? = some (.number m) := by
  simp only [content?, h]

/-- A number is compared by its magnitude, whatever its form, and with numbers only. -/
theorem same_of_number {shared : Bool} {a b : Datum}
    (h : a.magnitude?.isSome = true ∨ b.magnitude?.isSome = true) :
    same shared a b = match a.magnitude?, b.magnitude? with
      | some m, some n => m.same shared n
      | _, _ => false := by
  unfold same
  split
  case h_4 =>
    unfold sameScalar
    split
    case h_8 => rfl
    all_goals rcases h with h | h <;> cases h
  all_goals rcases h with h | h <;> cases h

theorem Magnitude.same_iff {shared : Bool} {m n : Magnitude} (hm : m ≠ .nan) :
    m.same shared n = true ↔ m = n := by
  unfold Magnitude.same
  split
  · exact absurd rfl hm
  · exact beq_iff_eq

/-- Scalars are equal when they stand for the same content. -/
theorem same_iff_content {shared : Bool} {a b : Datum} (ha : a.IsScalar) (hb : b.IsScalar) :
    same shared a b = true ↔ a.content? = b.content? := by
  have hnull : null.magnitude? = none := rfl
  have htext : ∀ s, (text s).magnitude? = none := fun s => rfl
  rcases ha.magnitude_cases with rfl | ⟨s, rfl⟩ | ⟨m, hm, ham⟩ <;>
    rcases hb.magnitude_cases with rfl | ⟨t, rfl⟩ | ⟨n, hn, hbm⟩
  case inr.inr.inr.inr =>
    rw [same_of_number (.inl (by rw [ham]; rfl)), content?_of_magnitude ham,
      content?_of_magnitude hbm, ham, hbm]
    simp [Magnitude.same_iff hm]
  case inl.inr.inr | inr.inl.inr.inr =>
    rw [same_of_number (.inr (by rw [hbm]; rfl)), content?_of_magnitude hbm]
    simp [content?, hnull, htext]
  case inr.inr.inl | inr.inr.inr.inl =>
    rw [same_of_number (.inl (by rw [ham]; rfl)), content?_of_magnitude ham]
    simp [content?, hnull, htext, ham]
  all_goals simp [same, sameScalar, content?, hnull, htext]

theorem sameEach_iff_content {shared : Bool} {xs ys : List Datum}
    (hx : ∀ x ∈ xs, x.IsScalar) (hy : ∀ y ∈ ys, y.IsScalar) :
    sameEach shared xs ys = true ↔ xs.map content? = ys.map content? := by
  induction xs generalizing ys with
  | nil => cases ys <;> simp [sameEach]
  | cons x xs ih =>
    cases ys with
    | nil => simp [sameEach]
    | cons y ys =>
      rw [List.forall_mem_cons] at hx hy
      simp [sameEach, same_iff_content hx.1 hy.1, ih hx.2 hy.2]

theorem unhashable?_of_isScalar {d : Datum} (h : d.IsScalar) : d.unhashable? = none := by
  cases d with
  | styled | list | tuple | node => cases h
  | _ => rfl

theorem unhashableAmong?_eq_none_iff {ds : List Datum} :
    unhashableAmong? ds = none ↔ ∀ d ∈ ds, d.unhashable? = none := by
  induction ds with
  | nil => simp [unhashableAmong?]
  | cons d ds ih => simp [unhashableAmong?, ih]

mutual
/-- Values with hashes can be compared. -/
theorem incomparable?_eq_none {shared : Bool} (a b : Datum) (ha : a.unhashable? = none)
    (hb : b.unhashable? = none) : incomparable? shared a b = none := by
  unfold incomparable?
  split
  next g xs h ys =>
    have hxs : unhashableAmong? xs = none := ha
    have hys : unhashableAmong? ys = none := hb
    split_ifs
    · rw [hxs, hys]; rfl
    · exact incomparableEach?_eq_none xs ys hxs hys
    · rfl
  next k xs l ys _ =>
    split_ifs
    · exact incomparableEach?_eq_none xs ys ha hb
    · rfl
  next xs ys => exact incomparableEach?_eq_none xs ys ha hb
  next xs ys => cases ha
  next => rfl

theorem incomparableEach?_eq_none {shared : Bool} (xs ys : List Datum)
    (hx : unhashableAmong? xs = none) (hy : unhashableAmong? ys = none) :
    incomparableEach? shared xs ys = none := by
  cases xs with
  | nil => rfl
  | cons x xs =>
    cases ys with
    | nil => rfl
    | cons y ys =>
      simp only [unhashableAmong?, Option.or_eq_none_iff] at hx hy
      rw [incomparableEach?, incomparable?_eq_none x y hx.1 hy.1,
        incomparableEach?_eq_none xs ys hx.2 hy.2, ite_self]
      rfl
end
end Datum

theorem Slot.isScalar_count (slot : Slot) : slot.count.IsScalar := by
  cases slot with
  | flag count on => cases count <;> trivial
  | valued count v => cases count <;> trivial

namespace Leaf

def Plain (l : Leaf) : Prop := ∀ v ∈ l.value?, v.IsScalar

instance : DecidablePred Plain := fun l => inferInstanceAs (Decidable (∀ v ∈ l.value?, v.IsScalar))

theorem Plain.isScalar {l : Leaf} (h : l.Plain) : ∀ d ∈ l.fields, d.IsScalar := by
  have hname : ∀ name : Option String, (name.elim Datum.null Datum.text).IsScalar := by
    intro name
    cases name <;> trivial
  cases l with
  | argument name v => simp [fields, hname, h v rfl]
  | command name v =>
    intro d hd
    rcases List.mem_pair.mp hd with rfl | rfl
    · trivial
    · exact h _ rfl
  | option o =>
    have hv := h o.slot.value rfl
    simp [fields, hname, Slot.isScalar_count, hv]
  | anyOptions => simp [fields]

/-- Leaves are equal when they are of one kind and their fields stand for the same contents. -/
theorem same_iff {shared : Bool} {l m : Leaf} (hl : l.Plain) (hm : m.Plain) :
    l.same shared m = true ↔
      l.kind = m.kind ∧ l.fields.map Datum.content? = m.fields.map Datum.content? := by
  have hk : l.kind ≠ .group .either := by cases l <;> simp [kind]
  rw [same, toDatum, toDatum, Datum.same_node, if_neg hk,
    Datum.sameEach_iff_content hl.isScalar hm.isScalar]

end Leaf

namespace Pattern

variable {shared : Bool} {p q : Pattern} {g h : Group} {cs ds : List Pattern}

def Plain (p : Pattern) : Prop := ∀ l ∈ p.leaves, l.Plain

instance : DecidablePred Plain := fun p => inferInstanceAs (Decidable (∀ l ∈ p.leaves, l.Plain))

theorem plain_leaf {l : Leaf} : (leaf l).Plain ↔ l.Plain := by simp [Plain, leaves]

theorem plain_branch : (branch g cs).Plain ↔ ∀ c ∈ cs, c.Plain := by
  unfold Plain
  simp only [leaves, mem_leavesOf]
  constructor
  · exact fun hb c hc l hl => hb l ⟨c, hc, hl⟩
  · rintro hb l ⟨c, hc, hl⟩
    exact hb c hc l hl

theorem kind_of_same (hs : p.same shared q = true) : p.kind = q.kind := by
  have hnode : ∀ p : Pattern, ∃ fields, p.toDatum = .node p.kind fields := by
    intro p
    cases p <;> exact ⟨_, rfl⟩
  obtain ⟨xs, hx⟩ := hnode p
  obtain ⟨ys, hy⟩ := hnode q
  rw [same, hx, hy, Datum.same_node] at hs
  exact hs.1

theorem kind_leaf_ne (l : Leaf) (g : Group) : (leaf l).kind ≠ (branch g cs).kind := by
  cases l <;> simp [kind, Leaf.kind]

theorem unhashable?_of_plain (hp : p.Plain) : p.toDatum.unhashable? = none := by
  induction p using children_induction with
  | leaf l =>
    apply Datum.unhashableAmong?_eq_none_iff.mpr
    intro d hd
    exact Datum.unhashable?_of_isScalar ((plain_leaf.mp hp).isScalar d hd)
  | branch g cs ih =>
    rw [plain_branch] at hp
    apply Datum.unhashableAmong?_eq_none_iff.mpr
    rw [toDatumEach_eq_map, List.forall_mem_map]
    exact fun c hc => ih c hc (hp c hc)

theorem compare_of_plain (hp : p.Plain) (hq : q.Plain) :
    p.toDatum.compare shared q.toDatum = .ok (p.same shared q) := by
  rw [Datum.compare,
    Datum.incomparable?_eq_none _ _ (unhashable?_of_plain hp) (unhashable?_of_plain hq)]
  rfl

abbrev SameEach (shared : Bool) (cs ds : List Pattern) : Prop :=
  List.Forall₂ (fun c d => c.same shared d = true) cs ds

abbrev SameBag (shared : Bool) (cs ds : List Pattern) : Prop :=
  PairOff (fun c d => c.same shared d = true) cs ds

theorem same_ordered_iff (hg : g ≠ .either) :
    (branch g cs).same shared (branch g ds) = true ↔ SameEach shared cs ds := by
  have hk : NodeKind.group g ≠ .group .either := by simpa using hg
  rw [same, toDatum, toDatum, Datum.same_node, if_neg hk]
  constructor
  · exact fun hs => forall₂_of_sameEach hs.2
  · intro hs
    refine ⟨rfl, ?_⟩
    induction hs with
    | nil => rfl
    | cons hcd hs ih => simp only [toDatumEach, Datum.sameEach, Bool.and_eq_true]; exact ⟨hcd, ih⟩

theorem same_either :
    (branch .either cs).same shared (branch .either ds) =
      Datum.sameBag shared (toDatumEach cs) (toDatumEach ds) := by
  simp [same, toDatum, Datum.same]

theorem sameBag_cons_eq (c : Pattern) :
    Datum.sameBag shared (toDatumEach (c :: cs)) (toDatumEach ds) =
      (ds.any (c.same shared ·) &&
        Datum.sameBag shared (toDatumEach cs) (toDatumEach (ds.eraseP (c.same shared ·)))) := by
  rw [toDatumEach, Datum.sameBag, toDatumEach_eq_map ds, List.any_map, List.eraseP_map,
    ← toDatumEach_eq_map]
  rfl

/-- Equal alternatives pair off: each takes away one that is equal. -/
theorem sameBag_of_same (hs : (branch .either cs).same shared (branch .either ds) = true) :
    SameBag shared cs ds := by
  rw [same_either] at hs
  induction cs generalizing ds with
  | nil =>
    cases ds with
    | nil => exact .of_forall₂ .nil
    | cons d ds => simp [toDatumEach, Datum.sameBag] at hs
  | cons c cs ih =>
    rw [sameBag_cons_eq, Bool.and_eq_true] at hs
    obtain ⟨d, hd, hcd⟩ := List.any_eq_true.mp hs.1
    obtain ⟨e, front, back, -, hce, rfl, herase⟩ := List.exists_of_eraseP hd hcd
    rw [herase] at hs
    obtain ⟨es, hp, hf⟩ := ih hs.2
    exact ⟨e :: es, (hp.cons e).trans List.perm_middle.symm, .cons hce hf⟩

/-- Alternatives that pair off are equal where an item that two others are equal to can be exchanged
for what one of them is equal to. -/
theorem same_of_sameBag (hb : SameBag shared cs ds)
    (hx : ∀ c ∈ cs, ∀ c' ∈ cs, ∀ d ∈ ds, ∀ d' ∈ ds, c.same shared d = true →
      c.same shared d' = true → c'.same shared d' = true → c'.same shared d = true) :
    (branch .either cs).same shared (branch .either ds) = true := by
  rw [same_either]
  induction cs generalizing ds with
  | nil =>
    obtain ⟨es, hp, hf⟩ := hb
    cases hf
    rw [List.nil_perm.mp hp]
    rfl
  | cons c cs ih =>
    obtain ⟨es, hp, hf⟩ := hb
    cases hf with
    | @cons _ e _ es hce hf =>
      have he : e ∈ ds := hp.subset (by simp)
      rw [sameBag_cons_eq, Bool.and_eq_true]
      refine ⟨List.any_eq_true.mpr ⟨e, he, hce⟩, ?_⟩
      obtain ⟨d, front, back, -, hcd, rfl, herase⟩ := List.exists_of_eraseP he hce
      rw [herase]
      have hout : (e :: es).Perm (d :: (front ++ back)) := hp.trans List.perm_middle
      have hd : d ∈ front ++ d :: back := by simp
      apply ih
      · rcases List.mem_cons.mp (hout.symm.subset List.mem_cons_self) with rfl | hmem
        · exact ⟨es, hout.cons_inv, hf⟩
        · obtain ⟨c', hc', hcd', hfree⟩ := exchange hf hmem
          obtain ⟨zs, hzs, hpz⟩ := hfree e
            (hx c (by simp) c' (by simp [hc']) e he d hd hce hcd hcd')
          exact ⟨zs, (hpz.trans hout).cons_inv, hzs⟩
      · intro a ha a' ha' b hb b' hb'
        have hsub : ∀ b ∈ front ++ back, b ∈ front ++ d :: back := fun b hb => by
          rcases List.mem_append.mp hb with hb | hb <;> simp [hb]
        exact hx a (by simp [ha]) a' (by simp [ha']) b (hsub b hb) b' (hsub b' hb')

/-- Equality of a tree with others goes both ways and is passed on. -/
structure Lawful (shared : Bool) (p : Pattern) : Prop where
  symm : ∀ q : Pattern, q.Plain → (p.same shared q = true ↔ q.same shared p = true)
  trans : ∀ q r : Pattern, q.Plain → r.Plain → p.same shared q = true →
    q.same shared r = true → p.same shared r = true

section Children

variable (hl : ∀ c ∈ cs, c.Plain ∧ Lawful shared c) (hd : ∀ d ∈ ds, d.Plain)
include hl hd

/-- A child that is equal to what another one is equal to is equal to all that the other is. -/
theorem Lawful.exchange {c c' d d' : Pattern} (hc : c ∈ cs) (hc' : c' ∈ cs) (hm : d ∈ ds)
    (hm' : d' ∈ ds) (hcd : c.same shared d = true) (hcd' : c.same shared d' = true)
    (hcd'' : c'.same shared d' = true) : c'.same shared d = true := by
  have hback := ((hl c hc).2.symm d' (hd d' hm')).mp hcd'
  have hacross := (hl c' hc').2.trans d' c (hd d' hm') (hl c hc).1 hcd'' hback
  exact (hl c' hc').2.trans c d (hl c hc).1 (hd d hm) hacross hcd

theorem same_either_iff_of_lawful :
    (branch .either cs).same shared (branch .either ds) = true ↔ SameBag shared cs ds := by
  refine ⟨sameBag_of_same, fun hb => same_of_sameBag hb ?_⟩
  intro c hc c' hc' d hm d' hm'
  exact Lawful.exchange hl hd hc hc' hm hm'

theorem same_either_symm :
    (branch .either cs).same shared (branch .either ds) = true ↔
      (branch .either ds).same shared (branch .either cs) = true := by
  rw [same_either_iff_of_lawful hl hd]
  constructor
  · intro hb
    have hflip : SameBag shared ds cs := by
      obtain ⟨zs, hp, hf⟩ := hb.flip
      refine ⟨zs, hp, forall₂_imp_of_mem hf fun d hm c hc hs => ?_⟩
      exact ((hl c (hp.subset hc)).2.symm d (hd d hm)).mp hs
    refine same_of_sameBag hflip ?_
    intro d hm d' hm' c hc c' hc' hdc hdc' hdc''
    have hsymm := fun e he c hc => (hl c hc).2.symm e (hd e he)
    rw [← hsymm _ hm _ hc] at hdc
    rw [← hsymm _ hm _ hc'] at hdc'
    rw [← hsymm _ hm' _ hc'] at hdc''
    rw [← hsymm _ hm' _ hc]
    exact Lawful.exchange hl hd hc' hc hm' hm hdc'' hdc' hdc
  · intro hs
    obtain ⟨zs, hp, hf⟩ := (sameBag_of_same hs).flip
    refine ⟨zs, hp, forall₂_imp_of_mem hf fun c hc d hm hs => ?_⟩
    exact ((hl c hc).2.symm d (hd d (hp.subset hm))).mpr hs

end Children

theorem leaf_of_kind {l : Leaf} (hk : (leaf l).kind = q.kind) : ∃ m, q = leaf m := by
  cases q with
  | leaf m => exact ⟨m, rfl⟩
  | branch g cs => exact absurd hk (kind_leaf_ne l g)

theorem branch_of_kind (hk : (branch g cs).kind = q.kind) : ∃ ds, q = branch g ds := by
  cases q with
  | leaf l => exact absurd hk.symm (kind_leaf_ne l g)
  | branch g' ds =>
    have hg : g = g' := NodeKind.group.inj hk
    exact ⟨ds, by rw [hg]⟩

theorem same_comm_of_kind
    (hs : p.kind = q.kind → (p.same shared q = true ↔ q.same shared p = true)) :
    p.same shared q = true ↔ q.same shared p = true :=
  ⟨fun h => (hs (kind_of_same h)).mp h, fun h => (hs (kind_of_same h).symm).mpr h⟩

theorem lawful_leaf {l : Leaf} (hl : (leaf l).Plain) : Lawful shared (leaf l) := by
  have hiff {m n : Leaf} (hm : (leaf m).Plain) (hn : (leaf n).Plain) :
      (leaf m).same shared (leaf n) = true ↔
        m.kind = n.kind ∧ m.fields.map Datum.content? = n.fields.map Datum.content? :=
    Leaf.same_iff (plain_leaf.mp hm) (plain_leaf.mp hn)
  constructor
  · intro q hq
    apply same_comm_of_kind
    intro hk
    obtain ⟨m, rfl⟩ := leaf_of_kind hk
    rw [hiff hl hq, hiff hq hl, eq_comm, eq_comm (a := l.fields.map _)]
  · intro q r hq hr hqs hrs
    obtain ⟨m, rfl⟩ := leaf_of_kind (kind_of_same hqs)
    obtain ⟨n, rfl⟩ := leaf_of_kind (kind_of_same hrs)
    rw [hiff hl hq] at hqs
    rw [hiff hq hr] at hrs
    rw [hiff hl hr]
    exact ⟨hqs.1.trans hrs.1, hqs.2.trans hrs.2⟩

theorem lawful_branch (hl : ∀ c ∈ cs, c.Plain ∧ Lawful shared c) :
    Lawful shared (branch g cs) := by
  constructor
  · intro q hq
    apply same_comm_of_kind
    intro hk
    obtain ⟨ds, rfl⟩ := branch_of_kind hk
    rw [plain_branch] at hq
    by_cases hg : g = .either
    · subst hg
      exact same_either_symm hl hq
    · rw [same_ordered_iff hg, same_ordered_iff hg]
      constructor
      · intro hs
        exact forall₂_imp_of_mem hs.flip fun d hd c hc h => ((hl c hc).2.symm d (hq d hd)).mp h
      · intro hs
        exact forall₂_imp_of_mem hs.flip fun c hc d hd h => ((hl c hc).2.symm d (hq d hd)).mpr h
  · intro q r hq hr hqs hrs
    obtain ⟨ds, rfl⟩ := branch_of_kind (kind_of_same hqs)
    obtain ⟨es, rfl⟩ := branch_of_kind (kind_of_same hrs)
    rw [plain_branch] at hq hr
    have hstep : ∀ c ∈ cs, ∀ d ∈ ds, ∀ e ∈ es, c.same shared d = true →
        d.same shared e = true → c.same shared e = true :=
      fun c hc d hd e he => (hl c hc).2.trans d e (hq d hd) (hr e he)
    by_cases hg : g = .either
    · subst hg
      obtain ⟨ds', hp, hf⟩ := sameBag_of_same hqs
      obtain ⟨es', hp', hf'⟩ := PairOff.of_perm hp (sameBag_of_same hrs)
      rw [same_either_iff_of_lawful hl hr]
      refine ⟨es', hp', forall₂_trans_of_mem hf hf' fun c hc d hd e he => ?_⟩
      exact hstep c hc d (hp.subset hd) e (hp'.subset he)
    · rw [same_ordered_iff hg] at hqs hrs ⊢
      exact forall₂_trans_of_mem hqs hrs hstep

theorem lawful_of_plain (hp : p.Plain) : Lawful shared p := by
  induction p using children_induction with
  | leaf l => exact lawful_leaf hp
  | branch g cs ih =>
    rw [plain_branch] at hp
    exact lawful_branch fun c hc => ⟨hp c hc, ih c hc (hp c hc)⟩

theorem same_refl (hp : p.Plain) : p.same shared p = true := by
  induction p using children_induction with
  | leaf l => exact (Leaf.same_iff (plain_leaf.mp hp) (plain_leaf.mp hp)).mpr ⟨rfl, rfl⟩
  | branch g cs ih =>
    rw [plain_branch] at hp
    have hself : SameEach shared cs cs :=
      List.forall₂_same.mpr fun c hc => ih c hc (hp c hc)
    by_cases hg : g = .either
    · subst hg
      have hl : ∀ c ∈ cs, c.Plain ∧ Lawful shared c := fun c hc =>
        ⟨hp c hc, lawful_of_plain (hp c hc)⟩
      exact (same_either_iff_of_lawful hl hp).mpr (.of_forall₂ hself)
    · exact (same_ordered_iff hg).mpr hself

/-- Alternatives are equal exactly when they pair off. -/
theorem same_either_iff (hc : ∀ c ∈ cs, c.Plain) (hd : ∀ d ∈ ds, d.Plain) :
    (branch .either cs).same shared (branch .either ds) = true ↔ SameBag shared cs ds :=
  same_either_iff_of_lawful (fun c hm => ⟨hc c hm, lawful_of_plain (hc c hm)⟩) hd

theorem leavesOf_eq_flatMap (ps : List Pattern) : leavesOf ps = ps.flatMap leaves := by
  induction ps with
  | nil => rfl
  | cons p ps ih => rw [leavesOf, ih, List.flatMap_cons]

theorem leaves_of_same (hs : p.same shared q = true) :
    PairOff (fun l m => l.same shared m = true) p.leaves q.leaves := by
  induction p using children_induction generalizing q with
  | leaf l =>
    obtain ⟨m, rfl⟩ := leaf_of_kind (kind_of_same hs)
    exact .of_forall₂ (.cons hs .nil)
  | branch g cs ih =>
    obtain ⟨ds, rfl⟩ := branch_of_kind (kind_of_same hs)
    have heach : ∀ es, SameEach shared cs es →
        PairOff (fun l m => l.same shared m = true) (leavesOf cs) (leavesOf es) := by
      intro es hf
      clear hs
      induction hf with
      | nil => exact .of_forall₂ .nil
      | @cons c e cs es hce hf ihs =>
        exact (ih c (by simp) hce).append (ihs fun d hd => ih d (by simp [hd]))
    rw [leaves, leaves]
    by_cases hg : g = .either
    · subst hg
      obtain ⟨es, hp, hf⟩ := sameBag_of_same hs
      obtain ⟨ms, hp', hf'⟩ := heach es hf
      refine ⟨ms, hp'.trans ?_, hf'⟩
      rw [leavesOf_eq_flatMap, leavesOf_eq_flatMap]
      exact hp.flatMap_right _
    · exact heach ds ((same_ordered_iff hg).mp hs)

/-- Plain trees can be compared; their equality is an equivalence, takes alternatives in any order and
the children of other branches in theirs, tells the kinds of node apart, and pairs off the leaves, which
are equal where the contents of their fields are. -/
theorem same_laws (shared : Bool) {p q r : Pattern} (hp : p.Plain) (hq : q.Plain) (hr : r.Plain) :
    p.toDatum.compare shared q.toDatum = .ok (p.same shared q) ∧
      p.same shared p = true ∧
      (p.same shared q = true → q.same shared p = true) ∧
      (p.same shared q = true → q.same shared r = true → p.same shared r = true) ∧
      (∀ cs ds, p = branch .either cs → q = branch .either ds →
        (p.same shared q = true ↔ ∃ es : List Pattern, es.Perm ds ∧
          List.Forall₂ (fun c e => c.same shared e = true) cs es)) ∧
      (∀ g cs ds, g ≠ .either → p = branch g cs → q = branch g ds →
        (p.same shared q = true ↔ List.Forall₂ (fun c d => c.same shared d = true) cs ds)) ∧
      (p.kind ≠ q.kind → p.same shared q = false) ∧
      (∀ l m, p = leaf l → q = leaf m → (p.same shared q = true ↔
        l.kind = m.kind ∧ l.fields.map Datum.content? = m.fields.map Datum.content?)) ∧
      (p.same shared q = true → ∃ ls : List Leaf, ls.Perm q.leaves ∧
        List.Forall₂ (fun l m => l.same shared m = true) p.leaves ls) := by
  have hlawful : Lawful shared p := lawful_of_plain hp
  refine ⟨compare_of_plain hp hq, same_refl hp, (hlawful.symm q hq).mp, hlawful.trans q r hq hr,
    ?_, ?_, ?_, ?_, leaves_of_same⟩
  · rintro cs ds rfl rfl
    exact same_either_iff (plain_branch.mp hp) (plain_branch.mp hq)
  · rintro g cs ds hg rfl rfl
    exact same_ordered_iff hg
  · intro hk
    exact Bool.eq_false_iff.mpr fun hs => hk (kind_of_same hs)
  · rintro l m rfl rfl
    exact Leaf.same_iff (plain_leaf.mp hp) (plain_leaf.mp hq)

theorem same_laws_reordered :
    let one : Datum := .float ⟨0x3ff0000000000000⟩
    let p := branch .either [leaf (.argument (some "<a>") (.int 1)),
      branch .either [leaf (.command "b" (.bool true)), leaf .anyOptions],
      leaf (.argument (some "<a>") (.bool true))]
    let q := branch .either [branch .either [leaf .anyOptions, leaf (.command "b" one)],
      leaf (.argument (some "<a>") one), leaf (.argument (some "<a>") (.int 1))]
    p.Plain ∧ q.Plain ∧ p.toDatum.compare false q.toDatum = .ok true ∧
      q.same false p = true ∧ ∃ ls : List Leaf, ls.Perm q.leaves ∧
        List.Forall₂ (fun l m => l.same false m = true) p.leaves ls := by
  intro one p q
  have hp : p.Plain := by decide +kernel
  have hq : q.Plain := by decide +kernel
  have hpq : p.same false q = true := by decide +kernel
  obtain ⟨hcompare, -, hsymm, -, -, -, -, -, hleaves⟩ := same_laws false hp hq hp
  exact ⟨hp, hq, hpq ▸ hcompare, hsymm hpq, hleaves hpq⟩

end Pattern

end Synopsis
