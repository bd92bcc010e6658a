/-! Sets of characters given as a sorted list of disjoint arithmetic progressions. -/
namespace Synopsis.Text

/-- The code points first, first + step, ... up to last. -/
structure Progression where
  first : Nat
  last : Nat
  step : Nat
  deriving DecidableEq, Repr

def Progression.contains (p : Progression) (n : Nat) : Bool :=
  p.first ≤ n && n ≤ p.last && (n - p.first) % p.step == 0

/-- Membership in a sorted list of disjoint progressions: the search ends at the first progression
that begins beyond the code point. -/
def inProgressions (n : Nat) : List Progression → Bool
  | [] => false
  | p :: rest => if n < p.first then false else p.contains n || inProgressions n rest

end Synopsis.Text
