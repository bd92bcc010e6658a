/-! Binary floating-point numbers of 64 bits, read and written as exact integers. -/
namespace Synopsis.Decimal

def pow2 (n : Nat) : Nat := Nat.pow 2 n

def pow10 (n : Nat) : Nat := Nat.pow 10 n

/-- A sign bit, eleven bits of exponent and fifty-two of fraction. -/
structure Binary64 where
  bits : UInt64
  deriving DecidableEq, Repr

namespace Binary64

def negative (x : Binary64) : Bool := pow2 63 ≤ x.bits.toNat

def exponentField (x : Binary64) : Nat := x.bits.toNat / pow2 52 % pow2 11

def fraction (x : Binary64) : Nat := x.bits.toNat % pow2 52

def isNaN (x : Binary64) : Bool := x.exponentField == 2047 && x.fraction != 0

def isInfinite (x : Binary64) : Bool := x.exponentField == 2047 && x.fraction == 0

def significand (x : Binary64) : Nat :=
  if x.exponentField = 0 then x.fraction else pow2 52 + x.fraction

/-- A finite number is its significand times two to this power, less 1074. -/
def power (x : Binary64) : Nat := x.exponentField - 1

/-- A finite number times 2^1074, which is an integer. -/
def scaled (x : Binary64) : Int :=
  let m : Int := x.significand * pow2 x.power
  if x.negative then -m else m

/-- The word of sign, significand and power; a power beyond the largest gives an infinity. -/
def assemble (negative : Bool) (significand power : Nat) : Binary64 :=
  let magnitude := if significand < pow2 52 then significand
    else (power + 1) * pow2 52 + (significand - pow2 52)
  let bounded := min magnitude (2047 * pow2 52)
  ⟨UInt64.ofNat (if negative then pow2 63 + bounded else bounded)⟩

/-- The quotient rounded to the nearest integer, a tie to the even one. -/
def roundHalfEven (num den : Nat) : Nat :=
  let q := num / den
  let r := num % den
  if 2 * r < den then q else if den < 2 * r then q + 1 else if q % 2 = 0 then q else q + 1

/-- The floor of the binary logarithm of a positive quotient. -/
def floorLog2 (num den : Nat) : Int :=
  let guess : Int := (Nat.log2 num : Int) - Nat.log2 den
  if num * pow2 (-guess).toNat < den * pow2 guess.toNat then guess - 1 else guess

/-- The number nearest to a quotient, a tie to the even significand. -/
def nearest (negative : Bool) (num den : Nat) : Binary64 :=
  if num = 0 then assemble negative 0 0
  else
    let power := (floorLog2 num den - 52 + 1074).toNat
    assemble negative (roundHalfEven (num * pow2 1074) (den * pow2 power)) power

end Binary64

end Synopsis.Decimal
