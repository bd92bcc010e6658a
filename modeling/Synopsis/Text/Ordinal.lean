/-! Ordinal numbers in English: words up to ten, digits with a suffix beyond. -/
namespace Synopsis.Text

def ordinalWords : List String :=
  ["first", "second", "third", "fourth", "fifth", "sixth", "seventh", "eighth", "ninth", "tenth"]

/-- The suffix follows the last digit, except that every number ending in 11 to 19 takes `th`. -/
def ordinalSuffix (n : Nat) : String :=
  if 10 < n % 100 ∧ n % 100 < 20 then "th"
  else match n % 10 with
    | 1 => "st"
    | 2 => "nd"
    | 3 => "rd"
    | _ => "th"

/-- The ordinal of the number `n + 1`. -/
def ordinalSucc (n : Nat) : String :=
  match ordinalWords[n]? with
  | some word => word
  | none => Nat.repr (n + 1) ++ ordinalSuffix (n + 1)

/-- The ordinal of a position; only positive numbers have one. -/
def ordinal? : Int → Option String
  | .ofNat (n + 1) => some (ordinalSucc n)
  | _ => none

end Synopsis.Text
