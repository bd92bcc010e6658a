import Synopsis.Coercion

/-! Lines of a help text that describe options and arguments. -/
namespace Synopsis

/-- An option of given names, each of which has to be well formed. -/
def OptionDecl.ofNames (short long : Option String) (slot : Slot) :
    Except Malformation OptionDecl :=
  if h : Named short long then .ok ⟨short, long, slot, h⟩
  else match short, long with
    | none, none => .error .nameless
    | some s, _ =>
      if isShortName s then .error (.badLong (.text (long.getD ""))) else .error (.badShort (.text s))
    | none, some l => .error (.badLong (.text l))

namespace Description

/-- The first column of a line ends at two spaces. -/
def firstColumn : List Char → List Char
  | [] => []
  | ' ' :: ' ' :: _ => []
  | c :: rest => c :: firstColumn rest

/-- The second column begins behind the two or more spaces that end the first. -/
def secondColumn : List Char → List Char
  | [] => []
  | ' ' :: ' ' :: rest => rest.dropWhile (· == ' ')
  | _ :: rest => secondColumn rest

def separatesNames (c : Char) : Bool := Text.isBlank c || c == ',' || c == '='

/-- The names of the first column: of each sort the last one counts, and a word without a dash stands
for a value. -/
structure Names where
  short : Option String
  long : Option String
  valued : Bool
  deriving DecidableEq, Repr

def Names.add (names : Names) (word : List Char) : Names :=
  match word with
  | '-' :: '-' :: _ => { names with long := some (String.ofList word) }
  | '-' :: _ => { names with short := some (String.ofList word) }
  | _ => { names with valued := true }

def Names.of (column : List Char) : Names :=
  (Text.fieldsOf separatesNames column).foldl Names.add ⟨none, none, false⟩

/-- The option that a line describes. A value has the default that the second column announces. -/
def read (line : String) : Except Failure OptionDecl :=
  match Text.trimBoth Text.isBlank line.toList with
  | [] => .error (.complaint (.blankDescription line))
  | c :: cs =>
    let column := firstColumn (c :: cs)
    let description := secondColumn (c :: cs)
    let names := Names.of column
    if names.short.isNone && names.long.isNone then
      .error (.complaint (.namelessDescription (String.ofList column) line))
    else
      let slot := if names.valued
        then .valued .int (.text (Coercion.default (String.ofList description)))
        else .flag .int false
      match OptionDecl.ofNames names.short names.long slot with
      | .ok o => .ok o
      | .error why => .error (.complaint (.malformed why))

def read? (line : String) : Option OptionDecl := (read line).toOption

/-- A description line begins, behind tabs and spaces, with a dash and a character that is not
blank. -/
def described? (line : List Char) : Option String :=
  match line.dropWhile fun c => c == '\t' || c == ' ' with
  | '-' :: c :: rest => if Text.isBlank c then none else some (String.ofList ('-' :: c :: rest))
  | _ => none

/-- The options that a help text describes, in order; lines that describe none are passed over. -/
def registryOf (doc : String) : Registry :=
  (Text.linesOf doc.toList).filterMap fun line => (described? line).bind read?

/-- The first placeholder in angle brackets without a blank. -/
def placeholder? : List Char → Option (List Char)
  | [] => none
  | c :: cs =>
    if c = '<' ∧ '>' ∈ cs.takeWhile (!Text.isBlank ·) then
      some ('<' :: cs.takeWhile (· != '>') ++ ['>'])
    else placeholder? cs

/-- The argument that a text describes, if it holds a placeholder. -/
def argument? (s : String) : Option Leaf :=
  (placeholder? s.toList).map fun name =>
    .argument (some (String.ofList name)) (.text (Coercion.default s))

end Description

end Synopsis
