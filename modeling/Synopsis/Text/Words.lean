import Synopsis.Text.Blank

/-! Fields and words of a text, trimming, and prefixes, all over the list of characters. -/
namespace Synopsis.Text

/-- The maximal runs of characters that are not separators, in order. -/
def fieldsOf (separates : Char → Bool) (cs : List Char) : List (List Char) :=
  match cs with
  | [] => []
  | c :: rest =>
    if separates c then fieldsOf separates rest
    else (c :: rest.takeWhile (!separates ·)) :: fieldsOf separates (rest.dropWhile (!separates ·))
termination_by cs.length
decreasing_by
  · simp
  · exact Nat.lt_succ_of_le (List.dropWhile_sublist _).length_le

@[simp] theorem fieldsOf_nil (separates : Char → Bool) : fieldsOf separates [] = [] := by
  rw [fieldsOf]

/-- A separator in front belongs to no field. -/
theorem fieldsOf_cons_of_separates {separates : Char → Bool} {c : Char} (cs : List Char)
    (h : separates c = true) : fieldsOf separates (c :: cs) = fieldsOf separates cs := by
  rw [fieldsOf, if_pos h]

/-- Any other character in front begins a field, which goes up to the next separator. -/
theorem fieldsOf_cons_of_not_separates {separates : Char → Bool} {c : Char} (cs : List Char)
    (h : separates c = false) :
    fieldsOf separates (c :: cs) =
      (c :: cs.takeWhile (!separates ·)) :: fieldsOf separates (cs.dropWhile (!separates ·)) := by
  rw [fieldsOf, if_neg (by simp [h])]

/-- A field is not empty and holds no separator. -/
theorem mem_fieldsOf {separates : Char → Bool} {cs field : List Char}
    (h : field ∈ fieldsOf separates cs) : field ≠ [] ∧ ∀ c ∈ field, separates c = false := by
  fun_induction fieldsOf separates cs with
  | case1 => simp at h
  | case2 c rest hc ih => exact ih h
  | case3 c rest hc ih =>
    rcases List.mem_cons.mp h with rfl | h
    · refine ⟨by simp, fun d hd => ?_⟩
      rcases List.mem_cons.mp hd with rfl | hd
      · simpa using hc
      · have := List.all_takeWhile (p := (!separates ·)) (l := rest)
        simpa using List.all_eq_true.mp this d hd
    · exact ih h

def words (s : String) : List String := (fieldsOf isBlank s.toList).map String.ofList

/-- The lines of a text: what stands between line feeds, empty lines included. -/
def linesOf : List Char → List (List Char)
  | [] => [[]]
  | c :: rest =>
    if c = '\n' then [] :: linesOf rest
    else match linesOf rest with
      | [] => [[c]]
      | line :: lines => (c :: line) :: lines

/-- The list without the characters of a class at either end. -/
def trimBoth (drops : Char → Bool) (cs : List Char) : List Char :=
  ((cs.dropWhile drops).reverse.dropWhile drops).reverse

def trim (s : String) : String := String.ofList (trimBoth isBlank s.toList)

def trimLines (s : String) : String := String.ofList (trimBoth (· == '\n') s.toList)

def startsWith (s start : String) : Bool := start.toList.isPrefixOf s.toList

/-- Texts one after another with a separator between neighbours. -/
def join (separator : String) : List String → String
  | [] => ""
  | [s] => s
  | s :: rest => s ++ separator ++ join separator rest

end Synopsis.Text
