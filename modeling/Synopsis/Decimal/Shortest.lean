import Synopsis.Decimal.Binary64

/-! The shortest decimal of a floating-point number: the fewest digits that read back as the number,
and of those the nearest. -/
namespace Synopsis.Decimal

/-- The decimal `digits · 10 ^ exponent`. -/
structure Digits where
  digits : Nat
  exponent : Int
  deriving DecidableEq, Repr

/-- The reals that round to a positive finite number, in quarters of its last place: the number is
`middle`, and the ends belong to the interval when the significand is even. -/
structure Interval where
  low : Nat
  middle : Nat
  high : Nat
  closed : Bool
  deriving DecidableEq, Repr

/-- Just above a power of two the spacing halves, so the lower end is nearer there. -/
def Interval.of (x : Binary64) : Interval :=
  let m := x.significand
  { low := if x.fraction = 0 ∧ 1 < x.exponentField then 4 * m - 1 else 4 * m - 2
    middle := 4 * m
    high := 4 * m + 2
    closed := m % 2 == 0 }

/-- The quotient of two naturals as a pair, so that powers of either sign can be applied. -/
structure Ratio where
  num : Nat
  den : Nat

def quarter (x : Binary64) : Ratio :=
  if 1076 ≤ x.power then ⟨pow2 (x.power - 1076), 1⟩ else ⟨1, pow2 (1076 - x.power)⟩

def tenTo (k : Int) : Ratio :=
  if 0 ≤ k then ⟨pow10 k.toNat, 1⟩ else ⟨1, pow10 (-k).toNat⟩

def digitCount (n : Nat) : Nat := (Nat.toDigits 10 n).length

/-- The floor of the decimal logarithm of a positive quotient. -/
def floorLog10 (num den : Nat) : Int :=
  if den ≤ num then (digitCount (num / den) : Int) - 1
  else -(digitCount ((den + num - 1) / num - 1) : Int)

/-- Whether `d · 10 ^ k` lies in the interval of the number. -/
def readsBack (x : Binary64) (d : Nat) (k : Int) : Bool :=
  let i := Interval.of x
  let u := quarter x
  let t := tenTo k
  let point := d * t.num * u.den
  let low := i.low * u.num * t.den
  let high := i.high * u.num * t.den
  if i.closed then low ≤ point && point ≤ high else low < point && point < high

/-- Of the two neighbours of the number on the grid of step `10 ^ k`, the nearest that reads back;
a tie goes to the even one. -/
def onGrid (x : Binary64) (k : Int) : Option Nat :=
  let u := quarter x
  let t := tenTo k
  let num := (Interval.of x).middle * u.num * t.den
  let den := t.num * u.den
  let below := num / den
  let rest := num % den
  match readsBack x below k, readsBack x (below + 1) k with
  | true, true =>
    some (if 2 * rest < den then below else if den < 2 * rest then below + 1
      else if below % 2 = 0 then below else below + 1)
  | true, false => some below
  | false, true => some (below + 1)
  | false, false => none

/-- The first grid with a hit, from coarse to fine. -/
def firstHit (x : Binary64) (k : Int) : Nat → Digits
  | 0 => ⟨((onGrid x k).getD 0), k⟩
  | finer + 1 =>
    match onGrid x k with
    | some d => ⟨d, k⟩
    | none => firstHit x (k - 1) finer

/-- The decimal without trailing zeros. -/
def Digits.reduced (d : Digits) : Digits :=
  if h : d.digits ≠ 0 ∧ d.digits % 10 = 0 then
    Digits.reduced ⟨d.digits / 10, d.exponent + 1⟩
  else d
termination_by d.digits
decreasing_by omega

/-- The shortest decimal of a positive finite number: at most seventeen digits are needed. -/
def shortest (x : Binary64) : Digits :=
  let u := quarter x
  let lead := floorLog10 ((Interval.of x).middle * u.num) u.den
  (firstHit x lead 16).reduced

end Synopsis.Decimal
