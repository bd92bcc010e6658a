import Synopsis.Proofs.Derivation

/-!
Brackets in pairs. What any part of the grammar reads closes every bracket that it opens with the
closer that the opener asks for, and closes no other.
-/
namespace Synopsis

namespace Token

/-- The brackets are in pairs: an opener stands in front of the closer it asks for, with nothing but
pairs between the two. -/
inductive Paired : List Token → Prop where
  | nil : Paired []
  | other {t : Token} {rest : List Token} (ho : t.kind ≠ .opener) (hc : t.kind ≠ .closer)
      (h : Paired rest) : Paired (t :: rest)
  | pair {opener closer : Token} {inside rest : List Token} (ho : opener.kind = .opener)
      (hc : closer.kind = .closer) (hm : closerOf? opener.text = some closer.text)
      (hi : Paired inside) (h : Paired rest) : Paired (opener :: (inside ++ closer :: rest))

theorem Paired.append {front back : List Token} (hf : Paired front) (hb : Paired back) :
    Paired (front ++ back) := by
  induction hf with
  | nil => exact hb
  | other ho hc h ih => exact .other ho hc ih
  | pair ho hc hm hi h ihi ih =>
    rw [List.cons_append, List.append_assoc, List.cons_append]
    exact .pair ho hc hm hi ih

/-- The brackets in front of what is left of a stream are in pairs. -/
def Spans (tokens rest : List Token) : Prop := ∃ used, tokens = used ++ rest ∧ Paired used

namespace Spans

variable {t opener closer : Token} {tokens middle rest after : List Token}

theorem refl (tokens : List Token) : Spans tokens tokens := ⟨[], rfl, .nil⟩

theorem trans (h : Spans tokens middle) (h' : Spans middle rest) : Spans tokens rest := by
  obtain ⟨front, rfl, hf⟩ := h
  obtain ⟨back, rfl, hb⟩ := h'
  exact ⟨front ++ back, (List.append_assoc ..).symm, hf.append hb⟩

theorem skip (rest : List Token) (ho : t.kind ≠ .opener) (hc : t.kind ≠ .closer) :
    Spans (t :: rest) rest := ⟨[t], rfl, .other ho hc .nil⟩

theorem word (rest : List Token) (h : t.kind = .word) : Spans (t :: rest) rest :=
  skip rest (by simp [h]) (by simp [h])

theorem enclose (ho : opener.kind = .opener) (hc : closer.kind = .closer)
    (hm : closerOf? opener.text = some closer.text) (h : Spans rest (closer :: after)) :
    Spans (opener :: rest) after := by
  obtain ⟨inside, rfl, hi⟩ := h
  exact ⟨opener :: (inside ++ [closer]), by simp, .pair ho hc hm hi .nil⟩

end Spans

end Token

namespace Usage

variable {part : Part} {tokens rest : List Token} {registry : Registry} {kind : TokenKind}
  {r : Reading Pattern}

open Token (Spans)

theorem spans_of_behind? (h : behind? kind tokens = some rest) (ho : kind ≠ .opener)
    (hc : kind ≠ .closer) : Spans tokens rest := by
  obtain ⟨t, rfl, rfl⟩ := suffix_of_behind? h
  exact .skip rest ho hc

theorem spans_repeated (a : Reading Pattern) : Spans a.rest (repeated a).rest := by
  unfold repeated
  split
  next rest h => exact spans_of_behind? h (by decide) (by decide)
  next => exact .refl _

/-- What closes the group of an opener is a closer, because no word is in front there. -/
theorem kind_of_closing {opener next : Token} {closer : String} {after : List Token}
    (hc : Token.closerOf? opener.text = some closer) (hn : next.text = closer)
    (hk : next.kind = .word ∨ next.kind = TokenKind.of next.text)
    (hb : beginsAtom (next :: after) = false) : next.kind = .closer := by
  rcases hk with hword | hkind
  · simp [beginsAtom, hword] at hb
  · rw [hkind, hn]
    exact (kind_of_closerOf? hc).2

/-- The brackets of every part are in pairs. -/
theorem spans_of_reads (h : Reads part tokens registry r)
    (hk : ∀ t ∈ tokens, t.kind = .word ∨ t.kind = TokenKind.of t.text) :
    Spans tokens r.rest := by
  induction h with
  | @word token rest registry r hw hr =>
    rcases (readWord_eq_ok_iff.mp hr).rest_cases with hrest | ⟨next, hrest, hn⟩
    · rw [← hrest]
      exact .word r.rest hw
    · rw [hrest]
      exact (Spans.word _ hw).trans (.word r.rest hn)
  | @group opener next closer rest after registry registry' inside ho hc he hn ih =>
    have hnk : next.kind = .closer :=
      kind_of_closing hc hn
        (hk next (List.mem_cons_of_mem _ ((suffix_of_reads he).subset (by simp))))
        (stops_of_reads he).2
    exact .enclose ho hnk (hn ▸ hc) (ih fun t ht => hk t (by simp [ht]))
  | stop | last => exact .refl _
  | @more tokens registry a s ha hs iha ihs =>
    have hsub := (repeated_suffix a).trans (suffix_of_reads ha)
    exact ((iha hk).trans (spans_repeated a)).trans (ihs fun t ht => hk t (hsub.subset ht))
  | @branch tokens rest registry s b hp hs hb ihs ihb =>
    have hrest : ∀ t ∈ rest, t.kind = .word ∨ t.kind = TokenKind.of t.text := by
      obtain ⟨t, rfl, -⟩ := suffix_of_behind? hp
      exact fun t ht => hk t (by simp [ht])
    exact ((spans_of_behind? hp (by decide) (by decide)).trans (ihs hrest)).trans
      (ihb fun t ht => hrest t ((suffix_of_reads hs).subset ht))
  | single hs hp ihs => exact ihs hk
  | several hs hp hb ihs ihb =>
    exact (ihs hk).trans (ihb fun t ht => hk t ((suffix_of_reads hs).subset ht))

end Usage

end Synopsis
