import Synopsis.Proofs.Nesting
import Synopsis.Proofs.Stability

/-!
The round trip from a tree over its text back to a tree. Over a registry with distinct names it gives
back the tree that was read if the tree is stable, and otherwise not even an equal one.
-/
namespace Synopsis

namespace Datum

theorem same_node {shared : Bool} {k l : NodeKind} {xs ys : List Datum} :
    same shared (.node k xs) (.node l ys) = true ↔
      k = l ∧ (if k = .group .either then sameBag shared xs ys
        else sameEach shared xs ys) = true := by
  simp [same]

theorem eq_of_same_names {shared : Bool} {x y : Option String}
    (h : same shared (x.elim .null .text) (y.elim .null .text) = true) : x = y := by
  cases x <;> cases y <;> simp_all [same, sameScalar, magnitude?]

/-- A number of arguments is zero in all its forms or one in all its forms. -/
theorem takesValue_of_same_count {shared : Bool} {s t : Slot}
    (h : same shared s.count t.count = true) : s.takesValue = t.takesValue := by
  have hapart : ∀ a b, same shared (Slot.flag a false).count (Slot.valued b .null).count = false ∧
      same shared (Slot.valued b .null).count (Slot.flag a false).count = false := by
    intro a b
    cases shared <;> cases a <;> cases b <;> decide +kernel
  cases s with
  | flag a on =>
    cases t with
    | flag b on' => rfl
    | valued b v =>
      have hfalse := (hapart a b).1
      cases a <;> cases b <;> exact absurd (h.symm.trans hfalse) (by decide)
  | valued a v =>
    cases t with
    | flag b on =>
      have hfalse := (hapart b a).2
      cases a <;> cases b <;> exact absurd (h.symm.trans hfalse) (by decide)
    | valued b v' => rfl

end Datum

namespace Pattern

theorem tolls_of_same {shared : Bool} {l m : Leaf} (h : l.same shared m = true) :
    l.toll = m.toll ∧ l.valueToll = m.valueToll := by
  obtain ⟨hk, hf⟩ := Datum.same_node.mp h
  cases l with
  | option o =>
    cases m with
    | option o' =>
      simp only [Leaf.kind, Leaf.fields, Datum.sameEach, Bool.and_eq_true, if_false,
        reduceCtorEq] at hf
      have hl : o.long = o'.long := Datum.eq_of_same_names hf.2.1
      have ht : o.takesValue = o'.takesValue := Datum.takesValue_of_same_count hf.2.2.1
      have hplain : o.plainLong = o'.plainLong := by rw [OptionDecl.plainLong, hl]; rfl
      exact ⟨by rw [Leaf.toll, Leaf.toll, hplain], by rw [Leaf.valueToll, Leaf.valueToll, ht]⟩
    | argument | command | anyOptions => simp [Leaf.kind] at hk
  | argument | command | anyOptions =>
    cases m with
    | option o' => simp [Leaf.kind] at hk
    | argument | command | anyOptions => exact ⟨rfl, rfl⟩

/-- Equal trees are equal leaves, alternatives that pair off in some order, or other branches of one
kind with equal children. -/
theorem same_cases {shared : Bool} {p q : Pattern} (h : p.same shared q = true) :
    (∃ l m : Leaf, p = leaf l ∧ q = leaf m ∧ l.same shared m = true) ∨
      (∃ cs ds, p = branch .either cs ∧ q = branch .either ds ∧
        Datum.sameBag shared (toDatumEach cs) (toDatumEach ds) = true) ∨
      ∃ g cs ds, g ≠ .either ∧ p = branch g cs ∧ q = branch g ds ∧
        Datum.sameEach shared (toDatumEach cs) (toDatumEach ds) = true := by
  have hne : ∀ (l : Leaf) (g : Group), l.kind ≠ .group g := by
    intro l g
    cases l <;> simp [Leaf.kind]
  cases p with
  | leaf l =>
    cases q with
    | leaf m => exact .inl ⟨l, m, rfl, rfl, h⟩
    | branch g ds => exact absurd (Datum.same_node.mp h).1 (hne l g)
  | branch g cs =>
    cases q with
    | leaf m => exact absurd (Datum.same_node.mp h).1.symm (hne m g)
    | branch g' ds =>
      obtain ⟨hk, hf⟩ := Datum.same_node.mp h
      obtain rfl := NodeKind.group.inj hk
      by_cases hg : g = .either
      · subst hg
        exact .inr (.inl ⟨cs, ds, rfl, rfl, hf⟩)
      · rw [if_neg (by simpa using hg)] at hf
        exact .inr (.inr ⟨g, cs, ds, hg, rfl, rfl, hf⟩)

theorem headToll_of_same {shared : Bool} {p q : Pattern} (h : p.same shared q = true) :
    p.headToll = q.headToll ∧ p.tailToll = q.tailToll := by
  rcases same_cases h with ⟨l, m, rfl, rfl, hs⟩ | ⟨cs, ds, rfl, rfl, -⟩ | ⟨g, cs, ds, -, rfl, rfl, -⟩
  · exact tolls_of_same hs
  · exact ⟨rfl, rfl⟩
  · exact ⟨rfl, rfl⟩

theorem forall₂_of_sameEach {shared : Bool} {cs ds : List Pattern}
    (h : Datum.sameEach shared (toDatumEach cs) (toDatumEach ds) = true) :
    List.Forall₂ (fun c d => c.same shared d = true) cs ds := by
  induction cs generalizing ds with
  | nil =>
    cases ds with
    | nil => exact .nil
    | cons d ds => simp [toDatumEach, Datum.sameEach] at h
  | cons c cs ih =>
    cases ds with
    | nil => simp [toDatumEach, Datum.sameEach] at h
    | cons d ds =>
      simp only [toDatumEach, Datum.sameEach, Bool.and_eq_true] at h
      exact .cons h.1 (ih h.2)

theorem spanCost_of_same {shared : Bool} {cs ds : List Pattern}
    (h : List.Forall₂ (fun c d => c.same shared d = true) cs ds) : spanCost cs = spanCost ds := by
  have hhead : cs.head?.elim 0 headToll = ds.head?.elim 0 headToll := by
    cases h with
    | nil => rfl
    | cons hc h => exact (headToll_of_same hc).1
  have htail : cs.getLast?.elim 0 tailToll = ds.getLast?.elim 0 tailToll := by
    induction h with
    | nil => rfl
    | cons hc h ih =>
      cases h with
      | nil => exact (headToll_of_same hc).2
      | cons hd h =>
        rw [List.getLast?_cons_cons, List.getLast?_cons_cons]
        exact ih (headToll_of_same hd).1
  rw [spanCost, spanCost, hhead, htail]

section Children

variable {shared : Bool} {cs : List Pattern}
    (ih : ∀ c ∈ cs, ∀ d : Pattern, c.same shared d = true → c.cost = d.cost)
include ih

theorem costEach_of_forall₂ {ds : List Pattern}
    (h : List.Forall₂ (fun c d => c.same shared d = true) cs ds) : costEach cs = costEach ds := by
  induction h with
  | nil => rfl
  | @cons c d cs ds hc h ihs =>
    rw [costEach, costEach, ih c (by simp) d hc, ihs fun e he => ih e (by simp [he])]

theorem costEach_of_sameBag {ds : List Pattern}
    (h : Datum.sameBag shared (toDatumEach cs) (toDatumEach ds) = true) :
    costEach cs = costEach ds := by
  induction cs generalizing ds with
  | nil =>
    cases ds with
    | nil => rfl
    | cons d ds => simp [toDatumEach, Datum.sameBag] at h
  | cons c cs ihs =>
    rw [toDatumEach, Datum.sameBag, toDatumEach_eq_map ds, Bool.and_eq_true, List.any_map,
      List.eraseP_map, ← toDatumEach_eq_map] at h
    obtain ⟨d, hd, hsame⟩ := List.any_eq_true.mp h.1
    obtain ⟨e, front, back, -, he, rfl, herase⟩ := List.exists_of_eraseP hd hsame
    have hrest := ihs (fun b hb => ih b (by simp [hb])) h.2
    rw [herase, costEach_append] at hrest
    rw [costEach, ih c (by simp) e he, hrest, costEach_append, costEach]
    omega

end Children

theorem cost_of_same {shared : Bool} {p q : Pattern} (h : p.same shared q = true) :
    p.cost = q.cost := by
  induction p using children_induction generalizing q with
  | leaf l =>
    rcases same_cases h with ⟨l', m, hl, rfl, hs⟩ | ⟨cs, ds, hb, -⟩ | ⟨g, cs, ds, -, hb, -⟩
    · cases hl
      obtain ⟨htoll, hvalue⟩ := tolls_of_same hs
      rw [cost, cost, htoll, hvalue]
    · cases hb
    · cases hb
  | branch g cs ih =>
    have hchild : ∀ c ∈ cs, ∀ d : Pattern, c.same shared d = true → c.cost = d.cost :=
      fun c hc d hs => ih c hc hs
    rcases same_cases h with ⟨l, m, hl, -⟩ | ⟨cs', ds, hb, rfl, hf⟩ | ⟨g', cs', ds, -, hb, rfl, hf⟩
    · cases hl
    · cases hb
      rw [cost_group cs (by decide), cost_group ds (by decide)]
      exact costEach_of_sameBag hchild hf
    · cases hb
      have hall := forall₂_of_sameEach hf
      by_cases hg : g = .oneOrMore
      · subst hg
        by_cases hone : cs.length = 1
        · obtain ⟨c, rfl⟩ := List.length_eq_one_iff.mp hone
          obtain ⟨d, ds, hc, hnil, rfl⟩ := List.forall₂_cons_left_iff.mp hall
          obtain rfl := List.forall₂_nil_left_iff.mp hnil
          rw [cost, cost]
          exact hchild c (by simp) d hc
        · rw [cost_cluster hone, cost_cluster (hall.length_eq ▸ hone), spanCost_of_same hall]
      · rw [cost_group cs hg, cost_group ds hg]
        exact costEach_of_forall₂ hchild hall

end Pattern

namespace Usage
open Pattern

/-- Two ellipses in a row stop the pass, whatever it has read before. -/
theorem run_ellipses {e e' : Token} (he : e.kind = .ellipsis) (he' : e'.kind = .ellipsis)
    (front rest : List Token) (s : Pass) : (s.run (front ++ e :: e' :: rest)).2 ≠ [] := by
  induction front generalizing s with
  | nil =>
    cases hr : s.repeatable with
    | false => simp [Pass.run, Pass.step, he, hr]
    | true => simp [Pass.run, Pass.step, he, he', hr]
  | cons t front ih =>
    rw [List.cons_append, Pass.run]
    split
    next next hstep => exact ih next
    next => simp

theorem stuck_of_ellipses {tokens : List Token} {pieces : List String}
    (hs : Spelled tokens pieces) (h : ["...", "..."] <:+: pieces) (s : Pass) :
    (s.run tokens).2 ≠ [] := by
  obtain ⟨before, after, rfl⟩ := h
  obtain ⟨front, rest, rfl, hfront, -⟩ := hs.append
  obtain ⟨front, ellipses, rfl, -, hellipses⟩ := hfront.append
  obtain ⟨e, es, rfl, -, he, hes⟩ := hellipses.cons
  obtain ⟨e', rfl, -, he'⟩ := hes.singleton
  have hk : TokenKind.of "..." = .ellipsis := by decide
  rw [List.append_assoc]
  exact run_ellipses (he.trans hk) (he'.trans hk) front rest s

theorem length_of_sameEach {shared : Bool} {xs ys : List Datum}
    (h : Datum.sameEach shared xs ys = true) : xs.length = ys.length := by
  induction xs generalizing ys with
  | nil =>
    cases ys with
    | nil => rfl
    | cons y ys => simp [Datum.sameEach] at h
  | cons x xs ih =>
    cases ys with
    | nil => simp [Datum.sameEach] at h
    | cons y ys =>
      simp only [Datum.sameEach, Bool.and_eq_true] at h
      simp [ih h.2]

/-- A registry that was only extended is equal to what it was only if it is what it was. -/
theorem eq_of_extends_of_same {shared : Bool} {before after : Registry}
    (he : Registry.Extends before after) (h : after.same shared before = true) :
    after = before := by
  have hlen := length_of_sameEach h
  rw [List.length_map, List.length_map] at hlen
  exact (he.starts.eq_of_length hlen.symm).symm

theorem normal_of_parse {usage : String} {registry : Registry} {p : Parsed}
    (h : parse usage registry = .ok p) :
    Registry.Extends registry p.registry ∧ ∃ found, p.pattern = .branch .required found ∧
      (∀ c ∈ found, Normal p.registry c) ∧
        Reads .expression (Token.scan usage) registry ⟨[], p.registry, found⟩ := by
  obtain ⟨found, hr, hp⟩ := reads_of_ofTokens h
  obtain ⟨hext, hnormal⟩ := regular_of_reads hr fun t ht => Token.scanned_of_mem_scan ht
  exact ⟨hext, found, hp, hnormal, hr⟩

/-- What an unstable tree is written as is not read back as an equal tree. -/
theorem stable_of_reread {registry : Registry} {found found' : List Pattern} {text : String}
    (hd : registry.Distinct) (hn : ∀ c ∈ found, Normal registry c)
    (ht : Token.pieces text = found.flatMap Pattern.pieces)
    (hr : Reads .expression (Token.scan text) registry ⟨[], registry, found'⟩)
    (hc : costEach found' = costEach found) : stableEach found = true := by
  have hscan := spelled_scan text
  have hweighs := weighs_each Pattern.pieces fun c hc => weighs_of_normal hd (hn c hc)
  have hpaid := paid_of_reads hr (fun t ht => Token.scanned_of_mem_scan ht) rfl
  rw [← ht] at hweighs
  simp only [Paid, texts, hscan.1, List.map_nil, weight_nil, Nat.zero_add] at hpaid
  by_contra hs
  rcases hweighs.excess (by simpa using hs) with hdouble | hlt
  · obtain ⟨again, hrun, -⟩ := crosses_of_reads hr hscan.2 [] false (ready_false _)
    exact stuck_of_ellipses hscan hdouble _ (congrArg Prod.snd hrun)
  · omega

/-- Over distinct names, the text of a tree that was read is read back as the same tree and registry
if the tree is stable, and as no equal tree with an equal registry otherwise. -/
theorem parse_render_iff_stable {usage : String} {registry : Registry} {p : Parsed}
    (hd : registry.Distinct) (h : parse usage registry = .ok p) :
    ∃ text, p.pattern.render = .ok (some text) ∧
      (p.pattern.stable = true → parse text p.registry = .ok p) ∧
        ∀ shared q, parse text p.registry = .ok q → q.pattern.same shared p.pattern = true →
          q.registry.same shared p.registry = true → p.pattern.stable = true := by
  obtain ⟨hext, found, hp, hn, -⟩ := normal_of_parse h
  obtain ⟨pattern, registry'⟩ := p
  subst hp
  have hd' : registry'.Distinct := hext.distinct hd
  refine ⟨_, render_required fun c hc => hasText_of_normal (hn c hc), fun hs => ?_, ?_⟩
  · rw [stable_group _ (by decide), stableEach_eq_all, List.all_eq_true] at hs
    obtain ⟨text, htext, hparse⟩ := parse_of_readBack fun c hc =>
      readBack_of_item (item_of_normal hd' (hn c hc) (hs c hc))
    rw [render_required fun c hc => hasText_of_normal (hn c hc)] at htext
    cases htext
    exact hparse
  · intro shared q hq hsame hreg
    obtain ⟨hext', found', hp', -, hr⟩ := normal_of_parse hq
    have hsame' := cost_of_same hsame
    rw [eq_of_extends_of_same hext' hreg] at hr
    rw [hp', cost_group _ (by decide), cost_group _ (by decide)] at hsame'
    rw [stable_group _ (by decide)]
    exact stable_of_reread hd' hn (pieces_join_text found) hr hsame'

theorem parse_render_repeated_cluster :
    let bee : OptionDecl := ⟨some "-b", some "--bee", .valued .int .null, by decide⟩
    ∃ p text, parse "go [ <x> | --all ] ( -abX ) ..." [bee] = .ok p ∧
      p.pattern.render = .ok (some text) ∧ parse text p.registry = .ok p := by
  intro bee
  have hok : (parse "go [ <x> | --all ] ( -abX ) ..." [bee]).toOption.any
      (·.pattern.stable) = true := by decide +kernel
  obtain ⟨p, hp, hs⟩ := exists_ok_of_any hok
  obtain ⟨text, htext, hback, -⟩ := parse_render_iff_stable ⟨by simp [bee], by simp [bee]⟩ hp
  exact ⟨p, text, hp, htext, hback hs⟩

/-- A repetition that is repeated again is read, written, and not read again. -/
theorem parse_render_repeated_repetition :
    ∃ p, parse "( a ... ) ..." [] = .ok p ∧ p.pattern.render = .ok (some "a ... ...") ∧
      ∀ q, parse "a ... ..." p.registry ≠ .ok q := by
  have hok : (parse "( a ... ) ..." []).toOption.any (fun p =>
      p.pattern.render.toOption == some (some "a ... ...") &&
        !(parse "a ... ..." p.registry).toBool) = true := by decide +kernel
  obtain ⟨p, hp, hcheck⟩ := exists_ok_of_any hok
  simp only [Bool.and_eq_true, beq_iff_eq, Bool.not_eq_true'] at hcheck
  refine ⟨p, hp, ?_, fun q hq => ?_⟩
  · cases hr : p.pattern.render with
    | error e => simp [hr, Except.toOption] at hcheck
    | ok s => simpa [hr, Except.toOption] using hcheck.1
  · simp [hq, Except.toBool] at hcheck

end Usage

end Synopsis
