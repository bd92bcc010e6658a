import Synopsis.Comparison
import Synopsis.Description

/-! Nodes built from values of which nothing is known: parameters are matched to fields, and the
fields are checked. -/
namespace Synopsis.Construction

/-- A field that may be given by place or by name, with the value it has when it is not given. -/
structure Parameter where
  name : String
  default : Option Value

/-- The kind to be built comes first, and always by place. -/
def receiver : Parameter := ⟨"cls", none⟩

/-- The parameters behind the kind to be built. -/
def parameters : NodeKind → List Parameter
  | .argument => [⟨"name", some .null⟩, ⟨"value", some .null⟩]
  | .command => [⟨"name", none⟩, ⟨"value", some (.bool false)⟩]
  | .option =>
    [⟨"short", some .null⟩, ⟨"long", some .null⟩, ⟨"argcount", some (.datum (.int 0))⟩,
      ⟨"value", some (.bool false)⟩]
  | _ => []

/-- What a call of a constructor is reported as: the branches have one in common. -/
def callee : NodeKind → String
  | .group _ => "BranchPattern.__new__()"
  | k => k.title ++ ".__new__()"

/-- Refuses names that no parameter has, and those of parameters already given by place. -/
def checkNames (k : NodeKind) (placed : Nat) : List (String × Value) → Except Misuse Unit
  | [] => .ok ()
  | (name, _) :: rest =>
    match (receiver :: parameters k).findIdx? (·.name == name) with
    | none => .error (.unknownParameter (callee k) name)
    | some i =>
      if i ≤ placed then .error (.repeatedParameter (callee k) name) else checkNames k placed rest

/-- The values of the parameters, in order. -/
def fill (k : NodeKind) (named : List (String × Value)) :
    List Parameter → List Value → Except Misuse (List Value)
  | [], _ => .ok []
  | _ :: ps, v :: vs => (fill k named ps vs).map (v :: ·)
  | p :: ps, [] =>
    match (named.lookup p.name).or p.default with
    | some v => (fill k named ps []).map (v :: ·)
    | none => .error (.missingParameter (callee k) p.name)

def bindParameters (k : NodeKind) (args : List Value) (named : List (String × Value)) :
    Except Misuse (List Value) := do
  let ps := parameters k
  checkNames k args.length named
  if ps.length < args.length then
    let least := (ps.filter (·.default.isNone)).length
    .error (.tooManyArguments (callee k) (least + 1) (ps.length + 1) (args.length + 1))
  else fill k named ps args

/-- The name of an option: a false value stands for none. -/
def optionName (v : Value) (wellFormed : String → Bool) (bad : Value → Malformation) :
    Except Malformation (Option String) :=
  if !v.truthy then .ok none
  else match v.text? with
    | some s => if wellFormed s then .ok (some s) else .error (bad v)
    | none => .error (bad v)

/-- The number of arguments: the integers zero and one, or floating-point numbers equal to them. -/
inductive Count where
  | none (spelling : NoArgument)
  | one (spelling : OneArgument)

def countOf? : Value → Option Count
  | .datum (.int 0) => some (.none .int)
  | .datum (.int 1) => some (.one .int)
  | .datum (.float x) =>
    if x.bits = 0 then some (.none .float)
    else if x.bits = 0x8000000000000000 then some (.none .negativeFloat)
    else if x.bits = 0x3ff0000000000000 then some (.one .float)
    else none
  | _ => none

/-- What an option of a name and a number of arguments holds: for a value, false stands for the empty
text. -/
def slotOf (name : String) (count value : Value) : Except Failure Slot :=
  match countOf? count with
  | none => .error (.complaint (.malformed (.badCount name count)))
  | some (.one spelling) =>
    match value with
    | .datum (.bool false) => .ok (.valued spelling (.text ""))
    | _ => .ok (.valued spelling value.toDatum)
  | some (.none spelling) =>
    match value with
    | .datum (.bool on) => .ok (.flag spelling on)
    | _ => .error (.complaint (.malformed (.flagValue name)))

def malformed {α : Type} (why : Except Malformation α) : Except Failure α :=
  why.mapError fun m => .complaint (.malformed m)

def option (short long count value : Value) : Except Failure OptionDecl := do
  if !short.truthy && !long.truthy then .error (.complaint (.malformed .nameless))
  let s ← malformed (optionName short isShortName .badShort)
  let l ← malformed (optionName long isLongName .badLong)
  let slot ← slotOf ((l.or s).getD "") count value
  malformed (OptionDecl.ofNames s l slot)

def leaf (k : NodeKind) (values : List Value) : Except Failure Leaf :=
  match k, values with
  | .argument, [name, value] =>
    match name with
    | .datum .null => .ok (.argument none value.toDatum)
    | .datum (.text s) => .ok (.argument (some s) value.toDatum)
    | _ => .error (.misuse .argumentName)
  | .command, [name, value] =>
    match name.text? with
    | some s =>
      if s = "" then .error (.misuse .commandName) else .ok (.command s value.toDatum)
    | none => .error (.misuse .commandName)
  | .option, [short, long, count, value] => (option short long count value).map .option
  | _, _ => .ok .anyOptions

/-- Children have to be patterns. -/
def patterns (label : String) : List Value → Except Misuse (List Pattern)
  | [] => .ok []
  | .pattern p :: rest => (patterns label rest).map (p :: ·)
  | v :: _ => .error (.notChild label v.kindName)

def branch (g : Group) (args : List Value) (named : List (String × Value)) :
    Except Misuse Pattern := do
  let label := (NodeKind.group g).label
  if named.any (·.1 == receiver.name) then
    .error (.repeatedParameter (callee (.group g)) receiver.name)
  if named.any (·.1 != "children") then .error (.onlyChildren label)
  let given ← match named.lookup "children" with
    | none => .ok args
    | some v =>
      if !args.isEmpty then .error (.childrenTwice label)
      else match v.parts? with
        | some vs => .ok vs
        | none => .error (.notIterable v.kindName)
  (patterns label given).map (.branch g)

def build (k : NodeKind) (args : List Value) (named : List (String × Value)) :
    Except Failure Pattern :=
  match k with
  | .group g => (branch g args named).mapError .misuse
  | _ => do
    let values ← (bindParameters k args named).mapError .misuse
    (leaf k values).map .leaf

/-- The fields of a node by name. -/
def fieldsOf : Pattern → List (String × Value)
  | .leaf l => l.kind.fields.zip (l.fields.map .datum)
  | .branch _ cs => [("children", .list (cs.map .pattern))]

def least : List String → Option String
  | [] => none
  | s :: rest => some (rest.foldl (fun a b => if b < a then b else a) s)

/-- The node with other values in some of its fields. -/
def replace (p : Pattern) (changes : List (String × Value)) : Except Failure Pattern :=
  match least ((changes.map (·.1)).filter fun name => !p.kind.fields.contains name) with
  | some name => .error (.misuse (.unknownField p.kind.label name))
  | none =>
    build p.kind [] ((fieldsOf p).map fun (name, v) => (name, (changes.lookup name).getD v))

/-- The node with other values in some of its fields, and whether it is still the same. What is not
changed is shared by both and needs no comparison, except that alternatives are always counted. -/
def compareReplaced (p : Pattern) (changes : List (String × Value)) :
    Except Failure (Pattern × Bool) := do
  let q ← replace p changes
  let shared := !changes.any fun c => c.1 == "value" || c.1 == "children"
  if shared && p.kind != .group .either then .ok (q, p.same true q)
  else
    let same ← (p.toDatum.compare shared q.toDatum).mapError .misuse
    .ok (q, same)

/-- No field of a node can be assigned or deleted, whatever its kind is called. -/
def assign (title : String) : Misuse := .immutable (Text.hyphenated title)

/-- The option with another value. -/
def rebind (o : OptionDecl) (value : Value) : Except Failure OptionDecl :=
  (slotOf o.name (.datum o.slot.count) value).map fun slot => { o with slot := slot }

end Synopsis.Construction
