import Synopsis.Failure

/-! Names of functions, of node kinds, and of unions of kinds of value. -/
namespace Synopsis.Naming

/-- A function can be renamed if it is callable and not built in. -/
def rename (target name : Value) : Except Misuse String :=
  if !target.isCallable then .error .renameTarget
  else match name.text?, target with
    | none, _ => .error .renameName
    | some s, .datum .function => .ok s
    | some _, _ => .error .renameFixed

/-- What renaming gives: the renamed function, or a function that renames. -/
inductive Renaming where
  | renamed (name : String)
  | renamer (name : String)
  deriving DecidableEq, Repr

def renamerName : String := "rename"

def apply (args : List Value) : Except Misuse Renaming :=
  match args with
  | [target, name] => (rename target name).map .renamed
  | [name] =>
    match name.text? with
    | some s => .ok (.renamer s)
    | none => .error .renamerName
  | _ => .error (.renameCount args.length)

/-- A function that renames, applied to a target. -/
def applyTo (args : List Value) (target : Value) : Except Misuse String := do
  match ← apply args with
  | .renamer name =>
    if target.isCallable then rename target (.text name) else .error .renamerTarget
  | .renamed name => .ok name

/-- The bases that a new kind of node can have; the concrete kinds are sealed. -/
inductive Base where
  | node | leaf | branch
  | kind (k : NodeKind)
  deriving DecidableEq, Repr

def derive (base : Base) (title : String) : Except Misuse String :=
  if title.toList.any (·.toNat == 0) then .error .brokenTitle
  else match base with
  | .kind k => .error (.sealed k.title)
  | _ => .ok (Text.hyphenated title)

inductive Member where
  | unset | null
  | scalar (k : ScalarKind)
  deriving DecidableEq, Repr

def Member.name : Member → String
  | unset => "UnsetType"
  | null => "NoneType"
  | scalar k => k.name

/-- Truth values also count as integers. -/
def Member.admits : Member → Value → Bool
  | unset, .datum .unset => true
  | null, .datum .null => true
  | scalar .str, .datum (.text _) => true
  | scalar .int, .datum (.int _) | scalar .int, .datum (.bool _) | scalar .int, .datum (.code _) => true
  | scalar .bool, .datum (.bool _) => true
  | scalar .float, .datum (.float _) => true
  | scalar .list, .list _ => true
  | _, _ => false

/-- The union of the kind of the absent value with another kind, in the order written. With itself it
is only itself. -/
def union (other : Value) (absentFirst : Bool) : Except Misuse (List Member) :=
  let member? : Option Member := match other with
    | .datum .null => some .null
    | .datum .unset => some .unset
    | .datum (.kind k) => some (.scalar k)
    | _ => none
  match member? with
  | some .unset => .ok [.unset]
  | some m => .ok (if absentFirst then [.unset, m] else [m, .unset])
  | none =>
    .error (if absentFirst then .noUnion "UnsetType" other.kindName
      else .noUnion other.kindName "UnsetType")

end Synopsis.Naming
