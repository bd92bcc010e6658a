import Synopsis.Decimal.Shortest

/-! How a floating-point number is laid out as text. -/
namespace Synopsis.Decimal

/-- The choices of a layout: numbers whose leading digit stands for a power of ten from `least` up to
but not including `most` are written positionally, the others with an exponent of at least
`exponentDigits` digits. -/
structure Layout where
  least : Int
  most : Int
  exponentDigits : Nat
  nan : String
  infinity : String

/-- Positional from a ten-thousandth up to 10^16, a fraction always shown, exponents of two digits. -/
def Layout.plain : Layout := ⟨-4, 16, 2, "nan", "inf"⟩

def digitsOf (n : Nat) : List Char := Nat.toDigits 10 n

def padLeft (width : Nat) (cs : List Char) : List Char :=
  List.replicate (width - cs.length) '0' ++ cs

/-- The digits with the decimal point behind the first `point` of them; at least one digit stands on
either side. -/
def positional (digits : List Char) (point : Int) : List Char :=
  if point ≤ 0 then '0' :: '.' :: List.replicate (-point).toNat '0' ++ digits
  else
    let whole := digits.take point.toNat ++ List.replicate (point.toNat - digits.length) '0'
    let rest := digits.drop point.toNat
    whole ++ '.' :: (if rest.isEmpty then ['0'] else rest)

def Layout.scientific (l : Layout) (digits : List Char) (exponent : Int) : List Char :=
  let mantissa := match digits with
    | [] => []
    | [d] => [d]
    | d :: rest => d :: '.' :: rest
  let sign := if exponent < 0 then '-' else '+'
  mantissa ++ 'e' :: sign :: padLeft l.exponentDigits (digitsOf exponent.natAbs)

def Layout.magnitude (l : Layout) (x : Binary64) : List Char :=
  if x.isInfinite then l.infinity.toList
  else if x.significand = 0 then positional ['0'] 1
  else
    let d := shortest x
    let digits := digitsOf d.digits
    let lead := d.exponent + digits.length - 1
    if l.least ≤ lead ∧ lead < l.most then positional digits (lead + 1)
    else l.scientific digits lead

def Layout.write (l : Layout) (x : Binary64) : String :=
  if x.isNaN then l.nan
  else if x.negative then String.ofList ('-' :: l.magnitude x)
  else String.ofList (l.magnitude x)

end Synopsis.Decimal
