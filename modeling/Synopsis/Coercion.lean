import Synopsis.Decimal.Numeral
import Synopsis.Failure
import Synopsis.Text.Folding

/-! Raw texts as numbers and truth values, and the defaults that descriptions announce. -/
namespace Synopsis.Coercion

/-- The text without its last character where that is a line feed. -/
def dropFinalNewline (cs : List Char) : List Char :=
  if cs.getLast? = some '\n' then cs.dropLast else cs

/-- A whole text in small letters, whatever its case. -/
def isFolded (word cs : List Char) : Bool := Text.dropFolded word cs == some []

def digitLimit : Nat := 4300

/-- Digits make an integer, other numerals a floating-point number, the words true and false a truth
value, and everything else stays a text. One final line feed is passed over, except that only
the bare word is true. -/
def classify (s : String) : Except Misuse Datum :=
  let cs := s.toList
  let body := dropFinalNewline cs
  if !body.isEmpty && body.all Decimal.isDigit then
    if digitLimit < body.length then .error (.digitLimit body.length)
    else .ok (.int (Decimal.valueOf body))
  else match Decimal.Numeral.read? body with
    | some n => .ok (.float n.toBinary64)
    | none =>
      if isFolded ['t', 'r', 'u', 'e'] body || isFolded ['f', 'a', 'l', 's', 'e'] body then
        .ok (.bool (isFolded ['t', 'r', 'u', 'e'] cs))
      else .ok (.text s)

def announcement : List Char := ['[', 'd', 'e', 'f', 'a', 'u', 'l', 't', ':', ' ']

/-- The list up to the last occurrence of a character, if there is one. -/
def untilLast? (c : Char) (cs : List Char) : Option (List Char) :=
  match cs.reverse.dropWhile (· != c) with
  | [] => none
  | _ :: rest => some rest.reverse

/-- What the first announcement announces: all up to the last closing bracket on its line. An
announcement without one is none. -/
def announced : List Char → Option (List Char)
  | [] => none
  | c :: cs =>
    match (Text.dropFolded announcement (c :: cs)).bind
        fun rest => untilLast? ']' (rest.takeWhile (· != '\n')) with
    | some value => some value
    | none => announced cs

/-- The default that a description announces, empty if it announces none. -/
def default (s : String) : String := String.ofList ((announced s.toList).getD [])

end Synopsis.Coercion
