import Synopsis.Failure

/-! Equality of values where it can be decided: alternatives are counted by their hashes, so that
they cannot be compared where one of them has none. -/
namespace Synopsis.Datum

mutual
/-- The kind of the first part of a value that has no hash. -/
def unhashable? : Datum → Option String
  | list _ => some "list"
  | styled _ => some "Text"
  | tuple ds | node _ ds => unhashableAmong? ds
  | _ => none

def unhashableAmong? : List Datum → Option String
  | [] => none
  | d :: rest => (unhashable? d).or (unhashableAmong? rest)
end

mutual
/-- The kind of the first part without a hash that a comparison runs into. A comparison ends at the
first difference, and does not look into leaves that are shared. -/
def incomparable? (shared : Bool) : Datum → Datum → Option String
  | node (.group g) xs, node (.group h) ys =>
    if g = h then
      if g = .either then (unhashableAmong? xs).or (unhashableAmong? ys)
      else incomparableEach? shared xs ys
    else none
  | node k xs, node l ys => if k = l ∧ !shared then incomparableEach? shared xs ys else none
  | tuple xs, tuple ys => incomparableEach? shared xs ys
  | list xs, list ys => if xs.length = ys.length then incomparableEach? shared xs ys else none
  | _, _ => none

def incomparableEach? (shared : Bool) : List Datum → List Datum → Option String
  | x :: xs, y :: ys =>
    (incomparable? shared x y).or
      (if same shared x y then incomparableEach? shared xs ys else none)
  | _, _ => none
end

def hashed (d : Datum) : Except Misuse Unit :=
  match d.unhashable? with
  | some name => .error (.unhashable name)
  | none => .ok ()

def compare (shared : Bool) (a b : Datum) : Except Misuse Bool :=
  match incomparable? shared a b with
  | some name => .error (.unhashable name)
  | none => .ok (a.same shared b)

end Synopsis.Datum
