import Mathlib.Data.List.Forall2
import Synopsis.Text.Folding

/-! Words in any mixture of cases: where they are recognised, and what their letters can be. -/
namespace Synopsis.Text

/-- The text is the word, which is given in small letters, in some mixture of cases. -/
def Folds (word cs : List Char) : Prop := List.Forall₂ (fun w c => foldsTo w c = true) word cs

instance (word cs : List Char) : Decidable (Folds word cs) :=
  inferInstanceAs (Decidable (List.Forall₂ _ word cs))

/-- A word is recognised where a text begins with characters that fold to those of the word. -/
theorem dropFolded_eq_some_iff {word cs rest : List Char} :
    dropFolded word cs = some rest ↔ ∃ head, cs = head ++ rest ∧ Folds word head := by
  induction word generalizing cs with
  | nil =>
    rw [dropFolded, Option.some.injEq]
    constructor
    · rintro rfl
      exact ⟨[], rfl, .nil⟩
    · rintro ⟨head, rfl, hhead⟩
      cases hhead
      rfl
  | cons w word ih =>
    constructor
    · intro h
      cases cs with
      | nil => simp [dropFolded] at h
      | cons c cs =>
        simp only [dropFolded] at h
        split at h
        next hc =>
          obtain ⟨head, rfl, hhead⟩ := ih.mp h
          exact ⟨c :: head, rfl, .cons hc hhead⟩
        next => cases h
    · rintro ⟨head, rfl, hhead⟩
      cases hhead with
      | cons hc hhead =>
        rw [List.cons_append, dropFolded, if_pos hc]
        exact ih.mpr ⟨_, rfl, hhead⟩

variable {small c : Char}

theorem toLower_of_foldsTo (hs : small ≠ 's') (h : foldsTo small c = true) :
    c.toLower = small := by
  simpa [foldsTo, hs] using h

theorem toLower_cases (c : Char) :
    c.toLower = c ∨ 65 ≤ c.toNat ∧ c.toNat ≤ 90 ∧ c.toLower.toNat = c.toNat + 32 := by
  unfold Char.toLower
  split
  next h =>
    obtain ⟨hA, hZ⟩ := h
    have hlow : 65 ≤ c.toNat := hA
    have hhigh : c.toNat ≤ 90 := hZ
    refine .inr ⟨hlow, hhigh, ?_⟩
    have hsum : (c.val + ('a'.val - 'A'.val)).toNat = (c.toNat + 32) % 2 ^ 32 :=
      UInt32.toNat_add c.val 32
    change (c.val + ('a'.val - 'A'.val)).toNat = c.toNat + 32
    omega
  next => exact .inl rfl

theorem eq_of_foldsTo (hs : small.toNat < 97) (h : foldsTo small c = true) : c = small := by
  have hne : small ≠ 's' := by
    rintro rfl
    exact absurd hs (by decide)
  have hc := toLower_of_foldsTo hne h
  rcases toLower_cases c with hself | ⟨hA, -, hshift⟩
  · rw [← hself, hc]
  · rw [hc] at hshift
    omega

end Synopsis.Text
