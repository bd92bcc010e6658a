import Synopsis.Proofs.Derivation

/-! The leaves of a usage pattern, read without its grouping. -/
namespace Synopsis.Usage

/-- Goes through a stream from left to right without looking at its grouping: delimiters are skipped,
and each word in front is read with the registry so far. -/
def readFlat (tokens : List Token) (registry : Registry) : Except Failure (List Leaf × Registry) :=
  match tokens with
  | [] => .ok ([], registry)
  | token :: rest =>
    if token.kind = .word then
      match h : readWord token rest registry with
      | .error f => .error f
      | .ok r =>
        have := readWord_length h
        (readFlat r.rest r.registry).map fun p => (r.found ++ p.1, p.2)
    else readFlat rest registry
termination_by tokens.length

theorem readFlat_word {token : Token} {rest : List Token} {registry : Registry} {r : Reading Leaf}
    (hk : token.kind = .word) (hr : readWord token rest registry = .ok r) :
    readFlat (token :: rest) registry =
      (readFlat r.rest r.registry).map fun p => (r.found ++ p.1, p.2) := by
  rw [readFlat, if_pos hk]
  split
  next f hf => simp [hr] at hf
  next s hs =>
    rw [hr, Except.ok.injEq] at hs
    rw [hs]

theorem readFlat_skip {token : Token} (rest : List Token) (registry : Registry)
    (hk : token.kind ≠ .word) : readFlat (token :: rest) registry = readFlat rest registry := by
  rw [readFlat, if_neg hk]

end Synopsis.Usage

namespace Synopsis.Pattern

theorem leavesOf_append (ps qs : List Pattern) :
    leavesOf (ps ++ qs) = leavesOf ps ++ leavesOf qs := by
  induction ps with
  | nil => rfl
  | cons p ps ih => simp [leavesOf, ih]

theorem leavesOf_map_leaf (ls : List Leaf) : leavesOf (ls.map leaf) = ls := by
  induction ls with
  | nil => rfl
  | cons l ls ih => simp [leavesOf, leaves, ih]

theorem leavesOf_singleton (p : Pattern) : leavesOf [p] = p.leaves := by simp [leavesOf]

theorem select_nil (p : Pattern) : p.select [] = p.leaves := by
  unfold select
  exact List.filter_eq_self.mpr (by simp)

end Synopsis.Pattern

namespace Synopsis.Usage
open Pattern

theorem leaves_grouped (ps : List Pattern) : (grouped ps).leaves = leavesOf ps := by
  unfold grouped
  split <;> simp [leavesOf, leaves]

theorem leaves_enclosed (opener : String) (ps : List Pattern) :
    (enclosed opener ps).leaves = leavesOf ps := by
  unfold enclosed
  split
  · exact leaves_grouped ps
  · rfl

theorem leavesOf_branchOf (ps : List Pattern) : leavesOf (branchOf ps) = leavesOf ps := by
  cases ps with
  | nil => rfl
  | cons p ps => simp [branchOf, leavesOf_singleton, leaves_grouped]

theorem leavesOf_alternation (ps : List Pattern) : leavesOf (alternation ps) = leavesOf ps := by
  unfold alternation
  split <;> simp [leavesOf, leaves]

theorem not_word_of_beginsAtom {token : Token} {rest : List Token}
    (h : beginsAtom (token :: rest) = false) : token.kind ≠ .word := by
  intro hk
  simp [beginsAtom, hk] at h

theorem readFlat_behind? {kind : TokenKind} {tokens rest : List Token} (registry : Registry)
    (hk : kind ≠ .word) (h : behind? kind tokens = some rest) :
    readFlat tokens registry = readFlat rest registry := by
  obtain ⟨t, rfl, ht⟩ := suffix_of_behind? h
  exact readFlat_skip rest registry (ht ▸ hk)

theorem readFlat_repeated (a : Reading Pattern) :
    (readFlat a.rest a.registry).map (fun p => (leavesOf a.found ++ p.1, p.2)) =
      (readFlat (repeated a).rest (repeated a).registry).map fun p =>
        (leavesOf (repeated a).found ++ p.1, p.2) := by
  unfold repeated
  split
  next rest h => rw [readFlat_behind? _ (by decide) h, leavesOf_singleton]; rfl
  next => rfl

theorem map_prepend (x : Except Failure (List Leaf × Registry)) (as bs : List Leaf) :
    (x.map fun p => (bs ++ p.1, p.2)).map (fun p => (as ++ p.1, p.2)) =
      x.map fun p => ((as ++ bs) ++ p.1, p.2) := by
  cases x <;> simp [Except.map]

/-- Each part of the grammar reads the leaves that the flat reading finds on the way. -/
theorem readFlat_of_reads {part : Part} {tokens : List Token} {registry : Registry}
    {r : Reading Pattern} (h : Reads part tokens registry r) :
    readFlat tokens registry =
      (readFlat r.rest r.registry).map fun p => (leavesOf r.found ++ p.1, p.2) := by
  have hnil : ∀ x : Except Failure (List Leaf × Registry),
      x = x.map fun p => (leavesOf [] ++ p.1, p.2) := by
    intro x
    cases x <;> rfl
  induction h with
  | @word token rest registry r hk hr =>
    rw [readFlat_word hk hr]
    simp [Reading.map, leavesOf_map_leaf]
  | group hk hc he hn ih =>
    have hw := not_word_of_beginsAtom (stops_of_reads he).2
    rw [readFlat_skip _ _ (by simp [hk]), ih, readFlat_skip _ _ hw, leavesOf_singleton,
      leaves_enclosed]
  | stop hb => exact hnil _
  | more ha hs iha ihs =>
    rw [iha, readFlat_repeated, ihs, map_prepend, leavesOf_append]
  | last hp => exact hnil _
  | branch hp hs hb ihs ihb =>
    rw [readFlat_behind? _ (by decide) hp, ihs, ihb, map_prepend, leavesOf_append,
      leavesOf_branchOf]
  | single hs hp ihs => exact ihs
  | several hs hp hb ihs ihb =>
    rw [ihs, ihb, map_prepend, leavesOf_alternation, leavesOf_append, leavesOf_branchOf]

/-- Grouping neither loses, repeats nor moves a leaf, and has no part in the registry. -/
theorem parse_eq_readFlat {usage : String} {registry : Registry} {p : Parsed}
    (h : parse usage registry = .ok p) :
    readFlat (Token.scan usage) registry = .ok (p.pattern.select [], p.registry) := by
  obtain ⟨found, hr, hp⟩ := reads_of_ofTokens h
  rw [readFlat_of_reads hr, readFlat, hp]
  simp [Except.map, select_nil, leaves]

theorem parse_eq_readFlat_grouped :
    ∃ p, parse "( -x <a> ) [ -x ] | --foo=<y> ..." [] = .ok p ∧
      readFlat (Token.scan "( -x <a> ) [ -x ] | --foo=<y> ...") [] =
        .ok (p.pattern.select [], p.registry) := by
  have hok : (parse "( -x <a> ) [ -x ] | --foo=<y> ..." []).toOption.any
      (fun _ => true) = true := by decide +kernel
  obtain ⟨p, hp, -⟩ := exists_ok_of_any hok
  exact ⟨p, hp, parse_eq_readFlat hp⟩

end Synopsis.Usage
