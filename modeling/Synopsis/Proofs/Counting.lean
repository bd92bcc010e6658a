import Synopsis.Proofs.Equality

/-!
Alternatives compared by how often each of them occurs. A tally counts equal ones together; two tallies
are the same when they hold the same entries in any order. On plain trees this is the comparison that
pairs alternatives off.
-/
namespace Synopsis.Pattern

variable {shared : Bool} {p q r : Pattern} {cs ds : List Pattern}

/-- A tree is counted with the first entry that it is equal to, or as an entry of its own. -/
def bump (shared : Bool) : List (Pattern × Nat) → Pattern → List (Pattern × Nat)
  | [], c => [(c, 1)]
  | (e, n) :: rest, c =>
    if e.same shared c then (e, n + 1) :: rest else (e, n) :: bump shared rest c

/-- How often each of the trees occurs. -/
def tally (shared : Bool) (cs : List Pattern) : List (Pattern × Nat) := cs.foldl (bump shared) []

/-- Every entry of one tally is an entry of the other. -/
def tallyWithin (shared : Bool) (s t : List (Pattern × Nat)) : Bool :=
  s.all fun e => t.any fun f => e.1.same shared f.1 && e.2 == f.2

def sameTally (shared : Bool) (s t : List (Pattern × Nat)) : Bool :=
  tallyWithin shared s t && tallyWithin shared t s

theorem same_comm (hp : p.Plain) (hq : q.Plain) : p.same shared q = q.same shared p :=
  Bool.eq_iff_iff.mpr ((lawful_of_plain hp).symm q hq)

/-- Equal trees are equal to the same trees. -/
theorem same_congr (hp : p.Plain) (hq : q.Plain) (hr : r.Plain) (h : p.same shared q = true) :
    p.same shared r = q.same shared r := by
  have hback : q.same shared p = true := same_comm hq hp ▸ h
  rw [Bool.eq_iff_iff]
  exact ⟨(lawful_of_plain hq).trans p r hp hr hback, (lawful_of_plain hp).trans q r hq hr h⟩

theorem countP_congr_same (hp : p.Plain) (hq : q.Plain) (hc : ∀ c ∈ cs, c.Plain)
    (h : p.same shared q = true) :
    cs.countP (p.same shared ·) = cs.countP (q.same shared ·) := by
  apply List.countP_congr
  intro c hm
  rw [same_congr hp hq (hc c hm) h]

/-- Alternatives pair off exactly when every tree occurs as often on either side. -/
theorem same_either_iff_counts (hc : ∀ c ∈ cs, c.Plain) (hd : ∀ d ∈ ds, d.Plain) :
    (branch .either cs).same shared (branch .either ds) = true ↔
      ∀ e : Pattern, e.Plain → cs.countP (e.same shared ·) = ds.countP (e.same shared ·) := by
  rw [same_either]
  induction cs generalizing ds with
  | nil =>
    cases ds with
    | nil => simp [toDatumEach, Datum.sameBag]
    | cons d ds =>
      have hself : d.same shared d = true := same_refl (hd d List.mem_cons_self)
      constructor
      · intro h
        simp [toDatumEach, Datum.sameBag] at h
      · intro h
        have hcount := h d (hd d List.mem_cons_self)
        rw [List.countP_nil, List.countP_cons_of_pos hself] at hcount
        omega
  | cons c cs ih =>
    rw [List.forall_mem_cons] at hc
    rw [sameBag_cons_eq, Bool.and_eq_true]
    cases hany : ds.any (c.same shared ·) with
    | false =>
      have hnone : ds.countP (c.same shared ·) = 0 := by
        rw [List.countP_eq_zero]
        exact fun d hm => List.any_eq_false.mp hany d hm
      constructor
      · rintro ⟨h, -⟩
        cases h
      · intro h
        have hcount := h c hc.1
        rw [hnone, List.countP_cons_of_pos (same_refl hc.1)] at hcount
        omega
    | true =>
      obtain ⟨d, hm, hcd⟩ := List.any_eq_true.mp hany
      obtain ⟨d, front, back, -, hcd, rfl, herase⟩ := List.exists_of_eraseP hm hcd
      have hrest : ∀ e ∈ front ++ back, e.Plain := by
        intro e he
        apply hd
        rcases List.mem_append.mp he with he | he <;> simp [he]
      rw [herase, ih hc.2 hrest]
      have hplain : d.Plain := hd d (by simp)
      have hcounts (e : Pattern) (he : e.Plain) :
          ((c :: cs).countP (e.same shared ·) = (front ++ d :: back).countP (e.same shared ·) ↔
            cs.countP (e.same shared ·) = (front ++ back).countP (e.same shared ·)) := by
        have hboth : e.same shared c = e.same shared d := by
          rw [same_comm he hc.1, same_comm he hplain, same_congr hc.1 hplain he hcd]
        rw [List.countP_append, List.countP_append, List.countP_cons, List.countP_cons, hboth]
        omega
      constructor
      · exact fun h e he => (hcounts e he).mpr (h.2 e he)
      · exact fun h => ⟨rfl, fun e he => (hcounts e he).mp (h e he)⟩

theorem bump_of_new {t : List (Pattern × Nat)} {c : Pattern}
    (h : ∀ e ∈ t, e.1.same shared c = false) : bump shared t c = t ++ [(c, 1)] := by
  induction t with
  | nil => rfl
  | cons e t ih =>
    rw [List.forall_mem_cons] at h
    rw [bump, h.1, if_neg Bool.false_ne_true, ih h.2, List.cons_append]

theorem bump_of_known {front back : List (Pattern × Nat)} {e c : Pattern} {n : Nat}
    (h : ∀ f ∈ front, f.1.same shared c = false) (hec : e.same shared c = true) :
    bump shared (front ++ (e, n) :: back) c = front ++ (e, n + 1) :: back := by
  induction front with
  | nil => exact if_pos hec
  | cons f front ih =>
    rw [List.forall_mem_cons] at h
    rw [List.cons_append, bump, h.1, if_neg Bool.false_ne_true, ih h.2, List.cons_append]

/-- The entries of a tally differ from each other, occur among the trees as often as they say, and
leave out no tree. -/
structure Tallies (shared : Bool) (t : List (Pattern × Nat)) (cs : List Pattern) : Prop where
  apart : t.Pairwise fun e f => e.1.same shared f.1 = false
  counted : ∀ e ∈ t, e.1 ∈ cs ∧ e.2 = cs.countP (e.1.same shared ·)
  found : ∀ c ∈ cs, ∃ e ∈ t, e.1.same shared c = true

namespace Tallies

variable {t : List (Pattern × Nat)}

theorem nil : Tallies shared [] [] := ⟨.nil, nofun, nofun⟩

section Step

variable {c : Pattern} (hcs : ∀ d ∈ cs, d.Plain) (hc : c.Plain)
include hcs hc

theorem bump_new (h : Tallies shared t cs) (hnew : ∀ e ∈ t, e.1.same shared c = false) :
    Tallies shared (t ++ [(c, 1)]) (cs ++ [c]) := by
  have hnone : cs.countP (c.same shared ·) = 0 := by
    rw [List.countP_eq_zero]
    intro d hd hcd
    obtain ⟨e, he, hed⟩ := h.found d hd
    have hplain : e.1.Plain := hcs e.1 (h.counted e he).1
    have hec : e.1.same shared c = true := by
      rw [same_congr hplain (hcs d hd) hc hed, same_comm (hcs d hd) hc, hcd]
    exact absurd hec (by rw [hnew e he]; exact Bool.false_ne_true)
  constructor
  case apart =>
    rw [List.pairwise_append]
    refine ⟨h.apart, List.pairwise_singleton .., ?_⟩
    simpa using fun e n he => hnew (e, n) he
  case counted =>
    intro e he
    rcases List.mem_append.mp he with he | he
    · obtain ⟨hmem, hcount⟩ := h.counted e he
      exact ⟨List.mem_append_left _ hmem, by simp [hcount, hnew e he]⟩
    · rw [List.mem_singleton.mp he]
      exact ⟨by simp, by simp [hnone, same_refl hc]⟩
  case found =>
    intro d hd
    rcases List.mem_append.mp hd with hd | hd
    · obtain ⟨e, he, hed⟩ := h.found d hd
      exact ⟨e, List.mem_append_left _ he, hed⟩
    · rw [List.mem_singleton.mp hd]
      exact ⟨(c, 1), by simp, same_refl hc⟩

theorem bump_known {front back : List (Pattern × Nat)} {e : Pattern} {n : Nat}
    (h : Tallies shared (front ++ (e, n) :: back) cs)
    (hfront : ∀ f ∈ front, f.1.same shared c = false) (hec : e.same shared c = true) :
    Tallies shared (front ++ (e, n + 1) :: back) (cs ++ [c]) := by
  obtain ⟨hmem, hcount⟩ := h.counted (e, n) (by simp)
  have hplain : e.Plain := hcs e hmem
  have hback : ∀ f ∈ back, f.1.same shared c = false := by
    intro f hf
    have hfplain : f.1.Plain := hcs f.1 (h.counted f (by simp [hf])).1
    have hef : e.same shared f.1 = false :=
      (List.pairwise_cons.mp (List.pairwise_append.mp h.apart).2.1).1 f hf
    rw [same_comm hfplain hc, ← same_congr hplain hc hfplain hec, hef]
  have hother (f : Pattern × Nat) (hf : f ∈ front ∨ f ∈ back) :
      f.1 ∈ cs ++ [c] ∧ f.2 = (cs ++ [c]).countP (f.1.same shared ·) := by
    obtain ⟨hfmem, hfcount⟩ := h.counted f (by rcases hf with hf | hf <;> simp [hf])
    have hfc : f.1.same shared c = false := hf.elim (hfront f) (hback f)
    exact ⟨List.mem_append_left _ hfmem, by simp [hfcount, hfc]⟩
  constructor
  case apart => simpa [List.pairwise_append] using h.apart
  case counted =>
    intro f hf
    rcases List.mem_append.mp hf with hf | hf
    · exact hother f (.inl hf)
    · rcases List.mem_cons.mp hf with rfl | hf
      · exact ⟨List.mem_append_left _ hmem, by simp [← hcount, hec]⟩
      · exact hother f (.inr hf)
  case found =>
    intro d hd
    rcases List.mem_append.mp hd with hd | hd
    · obtain ⟨f, hf, hfd⟩ := h.found d hd
      rcases List.mem_append.mp hf with hf | hf
      · exact ⟨f, by simp [hf], hfd⟩
      · rcases List.mem_cons.mp hf with rfl | hf
        · exact ⟨(e, n + 1), by simp, hfd⟩
        · exact ⟨f, by simp [hf], hfd⟩
    · rw [List.mem_singleton.mp hd]
      exact ⟨(e, n + 1), by simp, hec⟩

theorem bump (h : Tallies shared t cs) : Tallies shared (Pattern.bump shared t c) (cs ++ [c]) := by
  by_cases hk : ∃ e ∈ t, e.1.same shared c = true
  · obtain ⟨e, he, hec⟩ := hk
    obtain ⟨⟨e, n⟩, front, back, hfront, hec, rfl, -⟩ :=
      List.exists_of_eraseP (p := fun e => e.1.same shared c) he hec
    have hfront : ∀ f ∈ front, f.1.same shared c = false :=
      fun f hf => Bool.eq_false_iff.mpr (hfront f hf)
    rw [bump_of_known hfront hec]
    exact h.bump_known hcs hc hfront hec
  · have hnew : ∀ e ∈ t, e.1.same shared c = false :=
      fun e he => Bool.eq_false_iff.mpr fun hec => hk ⟨e, he, hec⟩
    rw [bump_of_new hnew]
    exact h.bump_new hcs hc hnew

end Step

theorem foldl_bump (hcs : ∀ c ∈ cs, c.Plain) (hds : ∀ d ∈ ds, d.Plain) (h : Tallies shared t cs) :
    Tallies shared (ds.foldl (Pattern.bump shared) t) (cs ++ ds) := by
  induction ds generalizing t cs with
  | nil => rwa [List.append_nil]
  | cons d ds ih =>
    rw [List.forall_mem_cons] at hds
    have hall : ∀ c ∈ cs ++ [d], c.Plain := by
      simpa [or_imp, forall_and] using ⟨hcs, hds.1⟩
    rw [List.foldl_cons, List.append_cons]
    exact ih hall hds.2 (h.bump hcs hds.1)

theorem tally (hcs : ∀ c ∈ cs, c.Plain) : Tallies shared (Pattern.tally shared cs) cs :=
  foldl_bump (by simp) hcs nil

/-- One tally is within another exactly when its trees occur as often among those of the other. -/
theorem within_iff {s t : List (Pattern × Nat)} (hs : Tallies shared s cs)
    (ht : Tallies shared t ds) (hcs : ∀ c ∈ cs, c.Plain) (hds : ∀ d ∈ ds, d.Plain) :
    tallyWithin shared s t = true ↔
      ∀ c ∈ cs, cs.countP (c.same shared ·) = ds.countP (c.same shared ·) := by
  have hps : ∀ e ∈ s, e.1.Plain := fun e he => hcs e.1 (hs.counted e he).1
  have hpt : ∀ f ∈ t, f.1.Plain := fun f hf => hds f.1 (ht.counted f hf).1
  simp only [tallyWithin, List.all_eq_true, List.any_eq_true, Bool.and_eq_true, beq_iff_eq]
  constructor
  · intro h c hc
    obtain ⟨e, he, hec⟩ := hs.found c hc
    obtain ⟨f, hf, hef, hcount⟩ := h e he
    rw [← countP_congr_same (hps e he) (hcs c hc) hcs hec,
      ← countP_congr_same (hps e he) (hcs c hc) hds hec, ← (hs.counted e he).2, hcount,
      (ht.counted f hf).2, countP_congr_same (hps e he) (hpt f hf) hds hef]
  · intro h e he
    obtain ⟨hmem, hcount⟩ := hs.counted e he
    have hpos : 0 < ds.countP (e.1.same shared ·) := by
      rw [← h e.1 hmem, List.countP_pos_iff]
      exact ⟨e.1, hmem, same_refl (hps e he)⟩
    obtain ⟨d, hd, hed⟩ := List.countP_pos_iff.mp hpos
    obtain ⟨f, hf, hfd⟩ := ht.found d hd
    have hef : e.1.same shared f.1 = true := by
      rw [same_congr (hps e he) (hds d hd) (hpt f hf) hed, same_comm (hds d hd) (hpt f hf), hfd]
    refine ⟨f, hf, hef, ?_⟩
    rw [hcount, (ht.counted f hf).2, h e.1 hmem, countP_congr_same (hps e he) (hpt f hf) hds hef]

end Tallies

/-- Plain alternatives are equal exactly when their tallies are the same. -/
theorem same_either_eq_sameTally (hc : ∀ c ∈ cs, c.Plain) (hd : ∀ d ∈ ds, d.Plain) :
    (branch .either cs).same shared (branch .either ds) =
      sameTally shared (tally shared cs) (tally shared ds) := by
  have htc : Tallies shared (tally shared cs) cs := .tally hc
  have htd : Tallies shared (tally shared ds) ds := .tally hd
  rw [Bool.eq_iff_iff, same_either_iff_counts hc hd, sameTally, Bool.and_eq_true,
    htc.within_iff htd hc hd, htd.within_iff htc hd hc]
  constructor
  · exact fun h => ⟨fun c hm => h c (hc c hm), fun d hm => (h d (hd d hm)).symm⟩
  · rintro ⟨hleft, hright⟩ e he
    by_cases hex : ∃ c ∈ cs, e.same shared c = true
    · obtain ⟨c, hm, hec⟩ := hex
      rw [countP_congr_same he (hc c hm) hc hec, countP_congr_same he (hc c hm) hd hec,
        hleft c hm]
    · by_cases hex' : ∃ d ∈ ds, e.same shared d = true
      · obtain ⟨d, hm, hed⟩ := hex'
        rw [countP_congr_same he (hd d hm) hc hed, countP_congr_same he (hd d hm) hd hed,
          hright d hm]
      · have hnone : cs.countP (e.same shared ·) = 0 :=
          List.countP_eq_zero.mpr fun c hm hec => hex ⟨c, hm, hec⟩
        rw [hnone, List.countP_eq_zero.mpr fun d hm hed => hex' ⟨d, hm, hed⟩]

end Synopsis.Pattern
