import Synopsis.Proofs.Folding
import Synopsis.Proofs.Numerals
import Synopsis.Proofs.Retyping

/-!
What raw texts are read as. A text of digits is an integer, any other numeral a floating-point
number, true and false in any mixture of cases are truth values, and everything else stays a text.
One final line feed is passed over, except that it turns what reads as true into false.
-/
namespace Synopsis

namespace Decimal

theorem isDigits_toDigits (n : ℕ) : IsDigits (Nat.toDigits 10 n) :=
  ⟨Nat.toDigits_ne_nil, fun _ hc => Nat.isDigit_of_mem_toDigits (by decide) (by decide) hc⟩

theorem Spells.exists_digit {cs : List Char} {n : Numeral} (h : Spells cs n) :
    ∃ c ∈ cs, isDigit c = true := by
  cases h with
  | whole hs hd he =>
    obtain ⟨d, ds, rfl, hdigit⟩ := hd.exists_cons
    exact ⟨d, by simp, hdigit⟩
  | point hs hw hf he =>
    obtain ⟨d, ds, rfl, hdigit⟩ := hf.exists_cons
    exact ⟨d, by simp, hdigit⟩

end Decimal

namespace Text

theorem isDigit_of_foldsTo {small c : Char} (h : foldsTo small c = true)
    (hc : Decimal.isDigit c = true) : Decimal.isDigit small = true := by
  have hrange : 48 ≤ c.toNat ∧ c.toNat ≤ 57 := Char.isDigit_iff_toNat.mp hc
  rw [foldsTo, Bool.or_eq_true, Bool.and_eq_true, beq_iff_eq, beq_iff_eq, beq_iff_eq] at h
  rcases h with hlower | ⟨-, rfl⟩
  · rcases toLower_cases c with hself | ⟨hA, -, -⟩
    · rwa [← hlower, hself]
    · omega
  · exact absurd hc (by decide)

variable {word cs : List Char} {c : Char}

theorem Folds.exists_of_mem (h : Folds word cs) (hc : c ∈ cs) :
    ∃ w ∈ word, foldsTo w c = true := by
  induction h with
  | nil => cases hc
  | @cons w c' word cs hfold hcs ih =>
    rcases List.mem_cons.mp hc with rfl | hc
    · exact ⟨w, List.mem_cons_self, hfold⟩
    · obtain ⟨w', hw', hfold'⟩ := ih hc
      exact ⟨w', List.mem_cons_of_mem w hw', hfold'⟩

theorem Folds.no_digit (h : Folds word cs) (hw : word.any Decimal.isDigit = false) (hc : c ∈ cs) :
    Decimal.isDigit c = false := by
  by_contra hdigit
  obtain ⟨w, hmem, hfold⟩ := h.exists_of_mem hc
  have hsmall := isDigit_of_foldsTo hfold (by simpa using hdigit)
  exact List.any_eq_false.mp hw w hmem hsmall

theorem Folds.no_newline (h : Folds word cs) (hw : '\n' ∉ word) : '\n' ∉ cs := by
  intro hc
  obtain ⟨w, hmem, hfold⟩ := h.exists_of_mem hc
  have hself : '\n' = w := by simpa [foldsTo] using hfold
  exact hw (hself ▸ hmem)

end Text

namespace Coercion

open Decimal (IsDigits Spells)
open Text (Folds)

/-- The text without its final line feed, if it has one. -/
def body (s : String) : List Char := dropFinalNewline s.toList

/-- The text is true or false in some mixture of cases. -/
def IsTruthWord (cs : List Char) : Prop := Folds "true".toList cs ∨ Folds "false".toList cs

instance : DecidablePred IsTruthWord := fun _ => inferInstanceAs (Decidable (_ ∨ _))

/-- What a text is read as, were there no limit to its digits. -/
inductive Classified (s : String) : Datum → Prop where
  | int (hd : IsDigits (body s)) : Classified s (.int (Decimal.valueOf (body s)))
  | float {n : Decimal.Numeral} (hd : ¬ IsDigits (body s)) (hn : Spells (body s) n) :
      Classified s (.float n.toBinary64)
  | bool (hb : IsTruthWord (body s)) :
      Classified s (.bool (decide (Folds "true".toList s.toList)))
  | text (hd : ¬ IsDigits (body s)) (hn : ¬ ∃ n, Spells (body s) n)
      (hb : ¬ IsTruthWord (body s)) : Classified s (.text s)

variable {s : String} {d : Datum}

theorem isFolded_eq_decide (word cs : List Char) : isFolded word cs = decide (Folds word cs) := by
  rw [Bool.eq_iff_iff, isFolded, beq_iff_eq, Text.dropFolded_eq_some_iff, decide_eq_true_eq]
  simp

theorem IsTruthWord.no_digit {cs : List Char} (h : IsTruthWord cs) {c : Char} (hc : c ∈ cs) :
    Decimal.isDigit c = false := by
  rcases h with h | h
  · exact h.no_digit (by decide) hc
  · exact h.no_digit (by decide) hc

theorem IsTruthWord.not_isDigits {cs : List Char} (h : IsTruthWord cs) : ¬ IsDigits cs := by
  intro hd
  obtain ⟨c, ds, rfl, hc⟩ := hd.exists_cons
  rw [h.no_digit List.mem_cons_self] at hc
  cases hc

theorem IsTruthWord.not_spells {cs : List Char} (h : IsTruthWord cs) : ¬ ∃ n, Spells cs n := by
  rintro ⟨n, hn⟩
  obtain ⟨c, hmem, hc⟩ := hn.exists_digit
  rw [h.no_digit hmem] at hc
  cases hc

theorem exists_classified (s : String) : ∃ d, Classified s d := by
  by_cases hd : IsDigits (body s)
  · exact ⟨_, .int hd⟩
  · by_cases hn : ∃ n, Spells (body s) n
    · obtain ⟨n, hn⟩ := hn
      exact ⟨_, .float hd hn⟩
    · by_cases hb : IsTruthWord (body s)
      · exact ⟨_, .bool hb⟩
      · exact ⟨_, .text hd hn hb⟩

theorem isTruthWord_iff {cs : List Char} : IsTruthWord cs ↔
    (isFolded ['t', 'r', 'u', 'e'] cs || isFolded ['f', 'a', 'l', 's', 'e'] cs) = true := by
  rw [isFolded_eq_decide, isFolded_eq_decide, Bool.or_eq_true, decide_eq_true_eq,
    decide_eq_true_eq]
  rfl

theorem classify_of_classified (h : Classified s d) (hs : ¬ Overlong s) : classify s = .ok d := by
  have hbody : dropFinalNewline s.toList = body s := rfl
  unfold classify
  dsimp only
  rw [hbody]
  cases h with
  | int hd =>
    rw [if_pos (Decimal.isDigits_iff.mp hd), if_neg]
    exact fun hlimit => hs ⟨List.all_eq_true.mpr hd.2, hlimit⟩
  | float hd hn =>
    rw [if_neg (mt Decimal.isDigits_iff.mpr hd), Decimal.read?_eq_some_iff.mpr hn]
  | bool hb =>
    rw [if_neg (mt Decimal.isDigits_iff.mpr hb.not_isDigits),
      Decimal.read?_eq_none_iff.mpr hb.not_spells]
    dsimp only
    rw [if_pos (isTruthWord_iff.mp hb), isFolded_eq_decide]
    rfl
  | text hd hn hb =>
    rw [if_neg (mt Decimal.isDigits_iff.mpr hd), Decimal.read?_eq_none_iff.mpr hn]
    dsimp only
    rw [if_neg (mt isTruthWord_iff.mpr hb)]

/-- The classification is exact for all texts that are not too long. -/
theorem classify_eq_ok_iff : classify s = .ok d ↔ Classified s d ∧ ¬ Overlong s := by
  constructor
  · intro h
    have hs : ¬ Overlong s := by
      intro ho
      rw [classify_of_overlong ho] at h
      cases h
    obtain ⟨d', hd'⟩ := exists_classified s
    have h' := classify_of_classified hd' hs
    rw [h] at h'
    cases h'
    exact ⟨hd', hs⟩
  · rintro ⟨h, hs⟩
    exact classify_of_classified h hs

theorem Overlong.isDigits (h : Overlong s) : IsDigits (body s) := by
  obtain ⟨hall, hlimit⟩ := h
  refine ⟨fun hnil => ?_, List.all_eq_true.mp hall⟩
  change digitLimit < (body s).length at hlimit
  rw [hnil] at hlimit
  exact absurd hlimit (by decide)

theorem not_overlong_of_length (h : s.length ≤ digitLimit) : ¬ Overlong s := by
  rintro ⟨-, hlimit⟩
  have hdrop : (dropFinalNewline s.toList).length ≤ s.length := by
    unfold dropFinalNewline
    split_ifs
    · rw [List.length_dropLast, String.length_toList]
      omega
    · rw [String.length_toList]
  omega

theorem body_of_no_newline (h : s.toList.getLast? ≠ some '\n') : body s = s.toList :=
  if_neg h

theorem body_repr (n : ℕ) : body (Nat.repr n) = Nat.toDigits 10 n := by
  rw [body_of_no_newline, Nat.toList_repr]
  rw [Nat.toList_repr]
  intro hlast
  have hdigit := (Decimal.isDigits_toDigits n).2 '\n' (List.mem_of_getLast? hlast)
  revert hdigit
  decide

/-- A text of at most 4300 characters is always read, and exactly thus: digits as the integer they
write, other numerals as a floating-point number, true and false as truth values, and all else as
the text itself, where a final line feed is passed over. -/
theorem classify_exact :
    (∀ s : String, s.length ≤ 4300 →
      let t := dropFinalNewline s.toList
      (∃ d, classify s = .ok d) ∧
      (∀ n, classify s = .ok (.int n) ↔ IsDigits t ∧ n = Nat.ofDigitChars 10 t 0) ∧
      (∀ x, classify s = .ok (.float x) ↔
        ¬ IsDigits t ∧ ∃ n, Spells t n ∧ x = n.toBinary64) ∧
      (∀ b, classify s = .ok (.bool b) ↔ (Folds "true".toList t ∨ Folds "false".toList t) ∧
        (b = true ↔ Folds "true".toList s.toList)) ∧
      (¬ IsDigits t → (¬ ∃ n, Spells t n) →
        ¬ (Folds "true".toList t ∨ Folds "false".toList t) → classify s = .ok (.text s))) ∧
      ∀ n : ℕ, (Nat.repr n).length ≤ 4300 → classify (Nat.repr n) = .ok (.int n) := by
  constructor
  · intro s hs t
    have hshort := not_overlong_of_length hs
    have hok : ∀ d, classify s = .ok d ↔ Classified s d := fun d => by
      rw [classify_eq_ok_iff, and_iff_left hshort]
    simp only [hok]
    refine ⟨exists_classified s, ?_, ?_, ?_, fun hd hn hb => .text hd hn hb⟩
    · intro n
      constructor
      · rintro ⟨hd⟩
        exact ⟨hd, rfl⟩
      · rintro ⟨hd, rfl⟩
        exact .int hd
    · intro x
      constructor
      · rintro (_ | ⟨hd, hn⟩)
        exact ⟨hd, _, hn, rfl⟩
      · rintro ⟨hd, n, hn, rfl⟩
        exact .float hd hn
    · intro b
      constructor
      · rintro (_ | _ | hb)
        exact ⟨hb, decide_eq_true_iff⟩
      · rintro ⟨hb, hvalue⟩
        have hdecide : b = decide (Folds "true".toList s.toList) := by
          rw [Bool.eq_iff_iff, hvalue, decide_eq_true_eq]
        rw [hdecide]
        exact .bool hb
  · intro n hn
    have hclassified : Classified (Nat.repr n) (.int (Decimal.valueOf (body (Nat.repr n)))) :=
      .int (by rw [body_repr]; exact Decimal.isDigits_toDigits n)
    rw [classify_of_classified hclassified (not_overlong_of_length hn), body_repr]
    exact congrArg (fun m : ℕ => Except.ok (Datum.int m)) Nat.ofDigitChars_ten_toDigits

theorem classify_exact_near_misses :
    let number := "+12.5e-3\n"
    let dotted := "1.2.3"
    number.length ≤ 4300 ∧ dotted.length ≤ 4300 ∧ (Nat.repr 18446744073709551616).length ≤ 4300 ∧
      classify number = .ok (.float (Decimal.Numeral.toBinary64 ⟨false, ['1', '2'], ['5'], -3⟩)) ∧
      classify dotted = .ok (.text dotted) ∧
      classify (Nat.repr 18446744073709551616) = .ok (.int 18446744073709551616) := by
  intro number dotted
  have hnumber : number.length ≤ 4300 := by decide
  have hdotted : dotted.length ≤ 4300 := by decide
  have hpower : (Nat.repr 18446744073709551616).length ≤ 4300 := by decide +kernel
  obtain ⟨-, -, hfloat, -⟩ := classify_exact.1 number hnumber
  obtain ⟨-, -, -, -, htext⟩ := classify_exact.1 dotted hdotted
  refine ⟨hnumber, hdotted, hpower, ?_, ?_, classify_exact.2 _ hpower⟩
  · apply (hfloat _).mpr
    exact ⟨by decide +kernel, _, Decimal.read?_eq_some_iff.mp (by decide +kernel), rfl⟩
  · apply htext
    · decide +kernel
    · exact Decimal.read?_eq_none_iff.mp (by decide +kernel)
    · decide +kernel

section Newline

variable {t : String}

theorem getLast?_newline (t : String) : (t ++ "\n").toList.getLast? = some '\n' := by
  simp

theorem body_newline (t : String) : body (t ++ "\n") = t.toList := by
  rw [body, dropFinalNewline, if_pos (getLast?_newline t)]
  simp

/-- What becomes of a value where a line feed is put behind the text. -/
def lineEnded : Datum → Datum
  | .text s => .text (s ++ "\n")
  | .bool _ => .bool false
  | d => d

theorem Classified.newline (h : t.toList.getLast? ≠ some '\n') {d : Datum} (hd : Classified t d) :
    Classified (t ++ "\n") (lineEnded d) := by
  have hbody : body (t ++ "\n") = body t := by rw [body_newline, body_of_no_newline h]
  cases hd with
  | int hd =>
    rw [← hbody] at hd ⊢
    exact .int hd
  | float hd hn =>
    rw [← hbody] at hd hn
    exact .float hd hn
  | bool hb =>
    rw [← hbody] at hb
    have hfalse : decide (Folds "true".toList (t ++ "\n").toList) = false :=
      decide_eq_false fun hfolds =>
        hfolds.no_newline (by decide) (List.mem_of_getLast? (getLast?_newline t))
    have hbool := Classified.bool hb
    rwa [hfalse] at hbool
  | text hd hn hb =>
    rw [← hbody] at hd hn hb
    exact .text hd hn hb

theorem overlong_newline_iff (h : t.toList.getLast? ≠ some '\n') :
    Overlong (t ++ "\n") ↔ Overlong t := by
  have hbody : dropFinalNewline (t ++ "\n").toList = dropFinalNewline t.toList :=
    (body_newline t).trans (body_of_no_newline h).symm
  unfold Overlong
  rw [hbody]

theorem classify_newline (h : t.toList.getLast? ≠ some '\n') {d : Datum}
    (hd : classify t = .ok d) : classify (t ++ "\n") = .ok (lineEnded d) := by
  obtain ⟨hclass, hshort⟩ := classify_eq_ok_iff.mp hd
  apply classify_eq_ok_iff.mpr
  exact ⟨hclass.newline h, mt (overlong_newline_iff h).mp hshort⟩

def IsTyped : Datum → Prop
  | .int _ | .float _ | .bool _ => True
  | _ => False

/-- A line feed behind the text changes neither the number or the truth value that is read nor,
where the text stays one, anything else about it. -/
def IgnoresNewline (t : String) : Prop :=
  (∀ d, classify t = .ok d → IsTyped d → classify (t ++ "\n") = .ok d) ∧
    (classify t = .ok (.text t) → classify (t ++ "\n") = .ok (.text (t ++ "\n")))

/-- A final line feed is ignored behind all texts but those that read as true, and makes them
false. -/
theorem ignoresNewline_iff (h : t.toList.getLast? ≠ some '\n') :
    (IgnoresNewline t ↔ ¬ Folds "true".toList t.toList) ∧
      (Folds "true".toList t.toList → classify t = .ok (.bool true) ∧
        classify (t ++ "\n") = .ok (.bool false)) := by
  have htrue : Folds "true".toList t.toList → classify t = .ok (.bool true) ∧
      classify (t ++ "\n") = .ok (.bool false) := by
    intro hfolds
    have hword : IsTruthWord (body t) := by
      rw [body_of_no_newline h]
      exact .inl hfolds
    have hread : classify t = .ok (.bool true) := by
      rw [classify_of_classified (.bool hword) fun ho => hword.not_isDigits ho.isDigits,
        decide_eq_true hfolds]
    exact ⟨hread, classify_newline h hread⟩
  refine ⟨⟨?_, ?_⟩, htrue⟩
  · rintro ⟨htyped, -⟩ hfolds
    obtain ⟨hread, hbehind⟩ := htrue hfolds
    have hsame := htyped _ hread trivial
    rw [hbehind] at hsame
    cases hsame
  · intro hnot
    refine ⟨fun d hd htyped => ?_, classify_newline h⟩
    have hbehind := classify_newline h hd
    obtain ⟨hclass, -⟩ := classify_eq_ok_iff.mp hd
    cases hclass with
    | int | float => exact hbehind
    | bool hb => rwa [decide_eq_false hnot] at hbehind ⊢
    | text => cases htyped

theorem ignoresNewline_iff_falsehood :
    "FALſE".toList.getLast? ≠ some '\n' ∧ IgnoresNewline "FALſE" ∧
      classify "FALſE\n" = .ok (.bool false) := by
  have hlast : "FALſE".toList.getLast? ≠ some '\n' := by decide +kernel
  have hignores : IgnoresNewline "FALſE" :=
    (ignoresNewline_iff hlast).1.mpr (by decide +kernel)
  exact ⟨hlast, hignores, hignores.1 _ rfl trivial⟩

/-- A line feed behind the word makes a false of a true. -/
theorem not_ignoresNewline_true :
    "true".toList.getLast? ≠ some '\n' ∧ classify "true" = .ok (.bool true) ∧
      classify ("true" ++ "\n") = .ok (.bool false) ∧ ¬ IgnoresNewline "true" := by
  have hread : classify "true" = .ok (.bool true) := rfl
  have hbehind : classify ("true" ++ "\n") = .ok (.bool false) := rfl
  refine ⟨by decide, hread, hbehind, fun h => ?_⟩
  have hsame := h.1 _ hread trivial
  rw [hbehind] at hsame
  cases hsame

end Newline

end Coercion

end Synopsis
