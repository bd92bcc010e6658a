import Mathlib.Data.List.TakeWhile
import Synopsis.Decimal.Numeral

/-!
The grammar of decimal numerals: an optional sign, digits with or without a point among them or in
front of them, and an optional exponent. A text is read as a numeral exactly where it is written by
the grammar, and then all of its parts are those of the text.
-/
namespace Synopsis.Decimal

def IsDigits (cs : List Char) : Prop := cs ≠ [] ∧ ∀ c ∈ cs, isDigit c = true

/-- An optional sign, and whether it is a minus. -/
inductive IsSign : List Char → Bool → Prop where
  | minus : IsSign ['-'] true
  | plus : IsSign ['+'] false
  | absent : IsSign [] false

/-- An optional exponent and its value. -/
inductive IsExponent : List Char → ℤ → Prop where
  | absent : IsExponent [] 0
  | marked {mark : Char} {sign digits : List Char} {negative : Bool}
      (hm : mark = 'e' ∨ mark = 'E') (hs : IsSign sign negative) (hd : IsDigits digits) :
      IsExponent (mark :: (sign ++ digits))
        (if negative then -(valueOf digits : ℤ) else valueOf digits)

/-- A text spells a numeral: a sign, then digits, or else digits that may be missing, a point and
digits, then an exponent; the sign and the exponent may be missing too. -/
inductive Spells : List Char → Numeral → Prop where
  | whole {sign digits exponent : List Char} {negative : Bool} {e : ℤ}
      (hs : IsSign sign negative) (hd : IsDigits digits) (he : IsExponent exponent e) :
      Spells (sign ++ (digits ++ exponent)) ⟨negative, digits, [], e⟩
  | point {sign whole fraction exponent : List Char} {negative : Bool} {e : ℤ}
      (hs : IsSign sign negative) (hw : ∀ c ∈ whole, isDigit c = true) (hf : IsDigits fraction)
      (he : IsExponent exponent e) :
      Spells (sign ++ (whole ++ '.' :: (fraction ++ exponent))) ⟨negative, whole, fraction, e⟩

variable {cs ds rest sign : List Char} {negative : Bool} {e : ℤ} {n : Numeral}

/-- A sign is split off where no further sign stands behind it. -/
theorem IsSign.splitSign_append (h : IsSign sign negative)
    (hr : ∀ c ∈ rest.head?, c ≠ '-' ∧ c ≠ '+') : splitSign (sign ++ rest) = (negative, rest) := by
  cases h with
  | minus => rfl
  | plus => rfl
  | absent =>
    cases rest with
    | nil => rfl
    | cons c rest =>
      obtain ⟨hminus, hplus⟩ := hr c rfl
      rw [List.nil_append, splitSign]
      · exact fun rest' h => hminus (List.cons.inj h).1
      · exact fun rest' h => hplus (List.cons.inj h).1

theorem exists_isSign (h : splitSign cs = (negative, rest)) :
    ∃ sign, IsSign sign negative ∧ cs = sign ++ rest := by
  unfold splitSign at h
  split at h
  · cases h
    exact ⟨['-'], .minus, rfl⟩
  · cases h
    exact ⟨['+'], .plus, rfl⟩
  · cases h
    exact ⟨[], .absent, rfl⟩

theorem not_sign_of_isDigit {c : Char} (h : isDigit c = true) : c ≠ '-' ∧ c ≠ '+' := by
  constructor <;>
  · rintro rfl
    revert h
    decide

theorem isDigits_iff : IsDigits ds ↔ (!ds.isEmpty && ds.all isDigit) = true := by
  simp [IsDigits]

instance : DecidablePred IsDigits := fun _ => decidable_of_iff' _ isDigits_iff

theorem IsDigits.exists_cons (h : IsDigits ds) : ∃ d ds', ds = d :: ds' ∧ isDigit d = true := by
  obtain ⟨hne, hall⟩ := h
  obtain ⟨d, ds, rfl⟩ := List.exists_cons_of_ne_nil hne
  exact ⟨d, ds, rfl, hall d (by simp)⟩

theorem IsSign.splitSign_digits (h : IsSign sign negative) (hd : IsDigits ds) (rest : List Char) :
    splitSign (sign ++ (ds ++ rest)) = (negative, ds ++ rest) := by
  apply h.splitSign_append
  obtain ⟨d, ds', rfl, hdigit⟩ := hd.exists_cons
  intro c hc
  cases hc
  exact not_sign_of_isDigit hdigit

theorem readExponent_eq_some_iff : readExponent cs = some e ↔ IsExponent cs e := by
  constructor
  · intro h
    cases cs with
    | nil =>
      cases h
      exact .absent
    | cons mark rest =>
      cases hsplit : splitSign rest with
      | mk negative digits =>
        obtain ⟨sign, hs, rfl⟩ := exists_isSign hsplit
        simp only [readExponent, hsplit] at h
        split at h
        next hmark =>
          rw [Bool.and_assoc, Bool.and_eq_true, ← isDigits_iff, Bool.or_eq_true, beq_iff_eq,
            beq_iff_eq] at hmark
          rw [← Option.some.inj h]
          exact .marked hmark.1 hs hmark.2
        next => cases h
  · intro h
    cases h with
    | absent => rfl
    | @marked mark sign digits negative hm hs hd =>
      have hsplit := hs.splitSign_digits hd []
      rw [List.append_nil] at hsplit
      have hmark : (mark == 'e' || mark == 'E') = true := by simpa using hm
      have hdigits := isDigits_iff.mp hd
      simp only [readExponent, hsplit, hmark, hdigits, Bool.true_and, if_true]

theorem takeWhile_digits (hd : ∀ c ∈ ds, isDigit c = true)
    (hr : ∀ c ∈ rest.head?, isDigit c = false) :
    (ds ++ rest).takeWhile isDigit = ds ∧ (ds ++ rest).dropWhile isDigit = rest := by
  rw [List.takeWhile_append_of_pos hd, List.dropWhile_append_of_pos hd]
  cases rest with
  | nil => simp
  | cons c rest =>
    have hc := hr c rfl
    simp [hc]

theorem IsExponent.not_digit (h : IsExponent cs e) : ∀ c ∈ cs.head?, isDigit c = false := by
  obtain _ | ⟨rfl | rfl, -, -⟩ := h
  · simp
  · rintro c ⟨⟩
    decide
  · rintro c ⟨⟩
    decide

theorem spells_of_read? (h : Numeral.read? cs = some n) : Spells cs n := by
  cases hsplit : splitSign cs with
  | mk negative body =>
    obtain ⟨sign, hs, rfl⟩ := exists_isSign hsplit
    simp only [Numeral.read?, hsplit] at h
    have hwhole := List.all_eq_true.mp (List.all_takeWhile (p := isDigit) (l := body))
    have hbody := List.takeWhile_append_dropWhile (p := isDigit) (l := body)
    generalize body.takeWhile isDigit = whole at h hwhole hbody
    split at h
    next rest hpoint =>
      split_ifs at h with hempty
      obtain ⟨e, he, rfl⟩ := Option.map_eq_some_iff.mp h
      have hfraction := List.all_eq_true.mp (List.all_takeWhile (p := isDigit) (l := rest))
      have hrest := List.takeWhile_append_dropWhile (p := isDigit) (l := rest)
      generalize rest.takeWhile isDigit = fraction at h hempty hfraction hrest
      rw [← hbody, hpoint, ← hrest]
      exact .point hs hwhole ⟨by simpa using hempty, hfraction⟩ (readExponent_eq_some_iff.mp he)
    next =>
      split_ifs at h with hempty
      obtain ⟨e, he, rfl⟩ := Option.map_eq_some_iff.mp h
      rw [← hbody]
      exact .whole hs ⟨by simpa using hempty, hwhole⟩ (readExponent_eq_some_iff.mp he)

theorem read?_of_spells (h : Spells cs n) : Numeral.read? cs = some n := by
  cases h with
  | @whole sign digits exponent negative e hs hd he =>
    obtain ⟨htake, hdrop⟩ := takeWhile_digits hd.2 he.not_digit
    have hread := readExponent_eq_some_iff.mpr he
    have hempty := List.isEmpty_eq_false_iff.mpr hd.1
    simp only [Numeral.read?, hs.splitSign_digits hd, htake, hdrop]
    split
    next rest =>
      cases he with
      | marked hm => simp at hm
    next => simp [hempty, hread]
  | @point sign whole fraction exponent negative e hs hw hf he =>
    let behind := '.' :: (fraction ++ exponent)
    have hpoint : ∀ c ∈ behind.head?, isDigit c = false := by
      rintro c ⟨⟩
      decide
    obtain ⟨htake, hdrop⟩ := takeWhile_digits hw hpoint
    obtain ⟨htake', hdrop'⟩ := takeWhile_digits hf.2 he.not_digit
    have hread := readExponent_eq_some_iff.mpr he
    have hempty := List.isEmpty_eq_false_iff.mpr hf.1
    have hsplit : splitSign (sign ++ (whole ++ behind)) = (negative, whole ++ behind) := by
      apply hs.splitSign_append
      intro c hc
      cases whole with
      | nil =>
        cases hc
        decide
      | cons d whole =>
        cases hc
        exact not_sign_of_isDigit (hw _ List.mem_cons_self)
    change Numeral.read? (sign ++ (whole ++ behind)) = _
    simp only [Numeral.read?, hsplit, htake, hdrop]
    simp only [behind, htake', hdrop', hempty, hread, Bool.false_eq_true, if_false, Option.map_some]

/-- The reader accepts the numerals of the grammar and nothing else. -/
theorem read?_eq_some_iff : Numeral.read? cs = some n ↔ Spells cs n :=
  ⟨spells_of_read?, read?_of_spells⟩

theorem read?_eq_none_iff : Numeral.read? cs = none ↔ ¬ ∃ n, Spells cs n := by
  rw [Option.eq_none_iff_forall_ne_some, not_exists]
  simp only [ne_eq, read?_eq_some_iff]

end Synopsis.Decimal
