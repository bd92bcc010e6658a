import Synopsis.OptionDecl

/-! The usage tree: leaves, and branches with children. -/
namespace Synopsis

/-- A leaf is a positional argument, a word to be typed verbatim, an option, or the placeholder for
any of the declared options. A positional of a command line is an argument without a name. -/
inductive Leaf where
  | argument (name : Option String) (value : Datum)
  | command (name : String) (value : Datum)
  | option (decl : OptionDecl)
  | anyOptions
  deriving Repr

inductive Pattern where
  | leaf (l : Leaf)
  | branch (g : Group) (children : List Pattern)
  deriving Repr

namespace Leaf

def kind : Leaf → NodeKind
  | argument .. => .argument
  | command .. => .command
  | option _ => .option
  | anyOptions => .anyOptions

def name? : Leaf → Option String
  | argument name _ => name
  | command name _ => some name
  | option o => some o.name
  | anyOptions => none

def value? : Leaf → Option Datum
  | argument _ v | command _ v => some v
  | option o => some o.slot.value
  | anyOptions => none

def fields : Leaf → List Datum
  | argument name v => [name.elim .null .text, v]
  | command name v => [.text name, v]
  | option o => [o.short.elim .null .text, o.long.elim .null .text, o.slot.count, o.slot.value]
  | anyOptions => []

def toDatum (l : Leaf) : Datum := .node l.kind l.fields

/-- Two leaves are the same when their kinds and fields are. -/
def same (shared : Bool) (a b : Leaf) : Bool := a.toDatum.same shared b.toDatum

def written (l : Leaf) : String := l.toDatum.written

end Leaf

/-- What a selection of leaves may ask for: one kind, any leaf, any branch, or any node. -/
inductive Selector where
  | kind (k : NodeKind)
  | leaf | branch | node
  deriving DecidableEq, Repr

def Selector.admits : Selector → Leaf → Bool
  | kind k, l => l.kind == k
  | leaf, _ | node, _ => true
  | branch, _ => false

namespace Pattern

def kind : Pattern → NodeKind
  | leaf l => l.kind
  | branch g _ => .group g

mutual
def leaves : Pattern → List Leaf
  | leaf l => [l]
  | branch _ cs => leavesOf cs

def leavesOf : List Pattern → List Leaf
  | [] => []
  | p :: rest => leaves p ++ leavesOf rest
end

/-- The leaves that one of the selectors admits; all of them where there is no selector. -/
def select (selectors : List Selector) (p : Pattern) : List Leaf :=
  p.leaves.filter fun l => selectors.isEmpty || selectors.any (·.admits l)

mutual
def toDatum : Pattern → Datum
  | leaf l => l.toDatum
  | branch g cs => .node (.group g) (toDatumEach cs)

def toDatumEach : List Pattern → List Datum
  | [] => []
  | p :: rest => toDatum p :: toDatumEach rest
end

theorem toDatumEach_eq_map (ps : List Pattern) : toDatumEach ps = ps.map toDatum := by
  induction ps with
  | nil => rfl
  | cons p rest ih => simp [toDatumEach, ih]

/-- Two trees are the same when their kinds and fields are; alternatives may stand in any order. -/
def same (shared : Bool) (p q : Pattern) : Bool := p.toDatum.same shared q.toDatum

def written (p : Pattern) : String := p.toDatum.written

end Pattern

/-- Two registries are the same when their entries are, in order. -/
def Registry.same (shared : Bool) (a b : Registry) : Bool :=
  Datum.sameEach shared (a.map fun o => (Leaf.option o).toDatum)
    (b.map fun o => (Leaf.option o).toDatum)

end Synopsis
