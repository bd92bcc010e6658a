import Synopsis.Text.Casing

/-! The kinds of node of a usage tree. -/
namespace Synopsis

inductive Group where
  | required | optional | either | oneOrMore
  deriving DecidableEq, Repr

inductive NodeKind where
  | argument | command | option | anyOptions
  | group (g : Group)
  deriving DecidableEq, Repr

namespace NodeKind

def title : NodeKind → String
  | argument => "Argument"
  | command => "Command"
  | option => "Option"
  | anyOptions => "AnyOptions"
  | group .required => "Required"
  | group .optional => "Optional"
  | group .either => "Either"
  | group .oneOrMore => "OneOrMore"

def label (k : NodeKind) : String := Text.hyphenated k.title

def fields : NodeKind → List String
  | argument | command => ["name", "value"]
  | option => ["short", "long", "argcount", "value"]
  | anyOptions => []
  | group _ => ["children"]

end NodeKind

end Synopsis
