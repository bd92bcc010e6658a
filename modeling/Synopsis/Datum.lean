import Synopsis.Decimal.Layout
import Synopsis.Fault.Code
import Synopsis.NodeKind
import Synopsis.StyledText
import Synopsis.Text.Quoted

/-! The values that leaves hold. A leaf may hold anything: scalars, things that can be called,
sequences, and nodes of a usage tree, which are held as their kind and their fields. -/
namespace Synopsis

open Decimal (Binary64)

/-- The kinds of value that can be named. -/
inductive ScalarKind where
  | str | int | bool | float | list
  deriving DecidableEq, Repr

def ScalarKind.name : ScalarKind → String
  | str => "str"
  | int => "int"
  | bool => "bool"
  | float => "float"
  | list => "list"

/-- Nothing, truth values, numbers, texts, the mark of an absent value, fault codes; kinds of value,
functions, and built-in functions, whose name is fixed; sequences; nodes. The fields of a branch
are its children. -/
inductive Datum where
  | null
  | bool (b : Bool)
  | int (n : Int)
  | float (x : Binary64)
  | text (s : String)
  | styled (t : StyledText)
  | unset
  | code (c : Fault.Code)
  | kind (k : ScalarKind)
  | function
  | builtin
  | list (items : List Datum)
  | tuple (items : List Datum)
  | node (k : NodeKind) (fields : List Datum)
  deriving Repr

namespace Datum

/-- A number is compared by its exact value, as an integer multiple of 2^-1074. -/
inductive Magnitude where
  | finite (scaled : Int)
  | infinite (negative : Bool)
  | nan
  deriving DecidableEq, Repr

def scale (n : Int) : Int := n * (Decimal.pow2 1074 : Nat)

/-- The number that a value stands for: truth values count as one and zero, codes as their number. -/
def magnitude? : Datum → Option Magnitude
  | bool b => some (.finite (scale b.toNat))
  | int n => some (.finite (scale n))
  | code c => some (.finite (scale c.number))
  | float x =>
    if x.isNaN then some .nan
    else if x.isInfinite then some (.infinite x.negative)
    else some (.finite x.scaled)
  | _ => none

/-- Equality of two numbers. Whether something that is not a number equals itself is the caller's
choice: it does when both sides are one stored value. -/
def Magnitude.same (shared : Bool) : Magnitude → Magnitude → Bool
  | nan, nan => shared
  | a, b => a == b

/-- Equality of values without parts: numbers are equal by value, whatever their form, functions only
to themselves, and the rest to their own kind. -/
def sameScalar (shared : Bool) : Datum → Datum → Bool
  | null, null | unset, unset | builtin, builtin => true
  | text s, text t => s == t
  | styled s, styled t => s.plain == t.plain && s.spans == t.spans
  | kind k, kind l => k == l
  | function, function => shared
  | a, b =>
    match magnitude? a, magnitude? b with
    | some m, some n => m.same shared n
    | _, _ => false

mutual
/-- Sequences are equal item by item, and so are nodes of one kind, except that alternatives may stand
in any order. -/
def same (shared : Bool) : Datum → Datum → Bool
  | list xs, list ys => sameEach shared xs ys
  | tuple xs, tuple ys => sameEach shared xs ys
  | node k xs, node l ys =>
    k == l && (if k = .group .either then sameBag shared xs ys else sameEach shared xs ys)
  | a, b => sameScalar shared a b

def sameEach (shared : Bool) : List Datum → List Datum → Bool
  | [], [] => true
  | x :: xs, y :: ys => same shared x y && sameEach shared xs ys
  | _, _ => false

/-- Pairwise in some order: each value takes away the first that is the same. -/
def sameBag (shared : Bool) : List Datum → List Datum → Bool
  | [], ys => ys.isEmpty
  | x :: xs, ys =>
    ys.any (fun y => same shared x y) && sameBag shared xs (ys.eraseP fun y => same shared x y)
end

/-- Nothing, zero and emptiness are false. -/
def truthy : Datum → Bool
  | null | unset => false
  | bool b => b
  | int n => n != 0
  | float x => x.isNaN || x.significand != 0
  | text s => s != ""
  | styled t => t.plain != ""
  | list ds | tuple ds | node (.group _) ds => !ds.isEmpty
  | _ => true

mutual
/-- The value as it is written in a constructor; a tuple of one item keeps its comma. -/
def written : Datum → String
  | null => "None"
  | bool true => "True"
  | bool false => "False"
  | int n => Int.repr n
  | float x => Decimal.Layout.plain.write x
  | text s => Text.quoted s
  | styled t => "<text " ++ Text.quoted t.plain ++ " [] " ++ Text.quoted t.style ++ ">"
  | unset => "Unset"
  | code c => "<FaultCode." ++ c.label ++ ": " ++ Nat.repr c.number ++ ">"
  | kind k => "<class '" ++ k.name ++ "'>"
  | function => "<function>"
  | builtin => "<built-in function len>"
  | list ds => "[" ++ Text.join ", " (writtenEach ds) ++ "]"
  | tuple [d] => "(" ++ written d ++ ",)"
  | tuple ds => "(" ++ Text.join ", " (writtenEach ds) ++ ")"
  | node k ds => k.title ++ "(" ++ Text.join ", " (writtenEach ds) ++ ")"

def writtenEach : List Datum → List String
  | [] => []
  | d :: rest => written d :: writtenEach rest
end

/-- The value as it is shown to a reader: texts bare, codes by number, the rest as written. -/
def shown : Datum → String
  | text s => s
  | styled t => t.plain
  | code c => Nat.repr c.number
  | d => written d

def kindName : Datum → String
  | null => "NoneType"
  | bool _ => "bool"
  | int _ => "int"
  | float _ => "float"
  | text _ => "str"
  | styled _ => "Text"
  | unset => "UnsetType"
  | code _ => "FaultCode"
  | kind _ => "type"
  | function => "function"
  | builtin => "builtin_function_or_method"
  | list _ => "list"
  | tuple _ => "tuple"
  | node k _ => k.title

end Datum

end Synopsis
