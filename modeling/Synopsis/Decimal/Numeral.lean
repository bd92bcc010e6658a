import Synopsis.Decimal.Binary64

/-! Decimal numerals: digit strings and their values. -/
namespace Synopsis.Decimal

def isDigit (c : Char) : Bool := '0' ≤ c && c ≤ '9'

def digitValue (c : Char) : Nat := c.toNat - 48

/-- The value of a digit string, the most significant digit first. -/
def valueOf (cs : List Char) : Nat := cs.foldl (fun n c => 10 * n + digitValue c) 0

/-- A decimal fraction with an optional sign and exponent. -/
structure Numeral where
  negative : Bool
  whole : List Char
  fraction : List Char
  exponent : Int
  deriving DecidableEq, Repr

/-- The leading sign, absent meaning plus, and what follows it. -/
def splitSign : List Char → Bool × List Char
  | '-' :: rest => (true, rest)
  | '+' :: rest => (false, rest)
  | cs => (false, cs)

/-- An exponent part: `e` or `E`, an optional sign, one or more digits and nothing else; or nothing
at all. -/
def readExponent : List Char → Option Int
  | [] => some 0
  | c :: rest =>
    let (negative, digits) := splitSign rest
    if (c == 'e' || c == 'E') && !digits.isEmpty && digits.all isDigit then
      let n : Int := valueOf digits
      some (if negative then -n else n)
    else none

/-- A numeral is an optional sign, then digits or optional digits before a point and at least one
after it, then an optional exponent. -/
def Numeral.read? (cs : List Char) : Option Numeral :=
  let (negative, body) := splitSign cs
  let whole := body.takeWhile isDigit
  let after := body.dropWhile isDigit
  match after with
  | '.' :: rest =>
    let fraction := rest.takeWhile isDigit
    if fraction.isEmpty then none
    else (readExponent (rest.dropWhile isDigit)).map fun e => ⟨negative, whole, fraction, e⟩
  | _ =>
    if whole.isEmpty then none
    else (readExponent after).map fun e => ⟨negative, whole, [], e⟩

/-- The nearest floating-point number. Numerals far outside the range are settled by the place of
their leading digit. -/
def Numeral.toBinary64 (n : Numeral) : Binary64 :=
  let digits := (n.whole ++ n.fraction).dropWhile (· == '0')
  let e := n.exponent - n.fraction.length
  let lead := e + digits.length
  if digits.isEmpty then Binary64.assemble n.negative 0 0
  else if 400 < lead then Binary64.assemble n.negative (pow2 52) 2046
  else if lead < -400 then Binary64.assemble n.negative 0 0
  else if 0 ≤ e then Binary64.nearest n.negative (valueOf digits * pow10 e.toNat) 1
  else Binary64.nearest n.negative (valueOf digits) (pow10 (-e).toNat)

end Synopsis.Decimal
