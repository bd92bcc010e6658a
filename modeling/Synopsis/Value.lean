import Synopsis.Pattern

/-! The values that callers hand over before anything is known about them. -/
namespace Synopsis

/-- Data, patterns, and sequences of values. -/
inductive Value where
  | datum (d : Datum)
  | pattern (p : Pattern)
  | list (items : List Value)
  | tuple (items : List Value)
  deriving Repr

namespace Value

def null : Value := .datum .null

def text (s : String) : Value := .datum (.text s)

def bool (b : Bool) : Value := .datum (.bool b)

def leaf (l : Leaf) : Value := .pattern (.leaf l)

def text? : Value → Option String
  | datum (.text s) => some s
  | _ => none

def isUnset : Value → Bool
  | datum .unset => true
  | _ => false

def isCallable : Value → Bool
  | datum (.kind _) | datum .function | datum .builtin => true
  | _ => false

mutual
/-- The value as a leaf holds it. -/
def toDatum : Value → Datum
  | datum d => d
  | pattern p => p.toDatum
  | list vs => .list (toDatumEach vs)
  | tuple vs => .tuple (toDatumEach vs)

def toDatumEach : List Value → List Datum
  | [] => []
  | v :: rest => toDatum v :: toDatumEach rest
end

def truthy (v : Value) : Bool := v.toDatum.truthy

def kindName (v : Value) : String := v.toDatum.kindName

def written (v : Value) : String := v.toDatum.written

def shown (v : Value) : String := v.toDatum.shown

/-- The parts of a value that can be gone through: the characters of a text, the items of a sequence,
the children of a branch. -/
def items? : Value → Option (List Value)
  | datum (.text s) => some (s.toList.map fun c => text (String.ofList [c]))
  | list vs | tuple vs => some vs
  | pattern (.branch _ cs) => some (cs.map pattern)
  | _ => none

/-- The parts of a value that has a first one, a second one and so on: also the characters of a styled
text. -/
def parts? : Value → Option (List Value)
  | datum (.styled t) =>
    some (t.plain.toList.map fun c => .datum (.styled (.of (String.ofList [c]) "")))
  | v => v.items?

end Value

end Synopsis
