import Synopsis.CommandLine
import Synopsis.Construction
import Synopsis.Fault
import Synopsis.Pattern.Printer
import Synopsis.Usage.Grammar
import Synopsis.Usage.Section

/-! The operations on values of which nothing is known: each checks what it is given and then does
its work. -/
namespace Synopsis.Request

def refuse {α : Type} (m : Misuse) : Except Failure α := .error (.misuse m)

def textFor (entry : Entry) (v : Value) : Except Failure String :=
  match v.text? with
  | some s => .ok s
  | none => refuse (.notText entry)

/-- The entries of what is handed over as a registry. -/
def entriesOf (v : Value) : Except Failure (List Value) :=
  match v.parts? with
  | some vs => .ok vs
  | none => refuse (.notIterable v.kindName)

/-- The options that some values are, or the first value that is none. -/
def optionsAmong : List Value → Except Value Registry
  | [] => .ok []
  | .pattern (.leaf (.option o)) :: rest => (optionsAmong rest).map (o :: ·)
  | v :: _ => .error v

def registryFor (entry : Entry) (v : Value) : Except Failure Registry := do
  match optionsAmong (← entriesOf v) with
  | .ok registry => .ok registry
  | .error _ => refuse (.notOptions entry)

/-- The texts among some values, if all of them are. -/
def textsAmong? : List Value → Option (List String)
  | [] => some []
  | v :: rest => do
    let s ← v.text?
    let ss ← textsAmong? rest
    some (s :: ss)

def tokens (source : Value) : Except Failure (List Token) :=
  (textFor .tokens source).map Token.scan

def plainTokens (source : Value) : Except Failure (List Token) :=
  (textFor .tokens source).map Token.scanPlain

/-- Words that are already split; one text is not. -/
def words (v : Value) : Except Failure (List Token) :=
  match v.text?, v.items?.bind textsAmong? with
  | none, some texts => .ok (Token.ofWords texts)
  | _, _ => refuse .notTexts

def classify (v : Value) : Except Failure Datum := do
  let s ← textFor .value v
  (Coercion.classify s).mapError .misuse

def default (v : Value) : Except Failure String := (textFor .default v).map Coercion.default

/-- The option that a line describes; a line that describes none is an error only where strictness is
asked for. -/
def description (line : Value) (strict : Bool) : Except Failure (Option OptionDecl) := do
  let s ← textFor .description line
  if strict then (Description.read s).map some else .ok (Description.read? s)

def argument (v : Value) : Except Failure (Option Leaf) :=
  (textFor .argument v).map Description.argument?

def descriptions (doc : Value) : Except Failure Registry :=
  (textFor .descriptions doc).map Description.registryOf

def usageSection (doc : Value) : Except Failure String := do
  Usage.sectionOf (← textFor .usageSection doc)

def formalUsage (usage : Value) : Except Failure String := do
  Usage.formal (← textFor .formalUsage usage)

def usage (text options : Value) : Except Failure Usage.Parsed := do
  let s ← textFor .usage text
  let registry ← registryFor .usage options
  Usage.parse s registry

/-- The tokens of a command line, given as one text or as its words. -/
def vector (argv : Value) : Except Failure (List Token) :=
  match argv.text? with
  | some s => .ok (Token.scanPlain s)
  | none => if argv.items?.isSome then words argv else refuse .notVector

def commandLine (argv options : Value) (optionsFirst : Bool) :
    Except Failure CommandLine.Parsed := do
  let line ← vector argv
  let registry ← registryFor .commandLine options
  CommandLine.ofTokens optionsFirst line registry

/-- The first token of a stream has to exist. -/
def onFirst {α : Type} (read : Token → List Token → Except Failure α) :
    List Token → Except Failure α
  | [] => refuse .emptyStream
  | token :: rest => read token rest

def long (mode : Mode) (stream : List Token) (registry : Registry) :
    Except Failure (Reading OptionDecl) :=
  onFirst (fun token rest => registry.readLong mode token rest) stream

def cluster (mode : Mode) (stream : List Token) (registry : Registry) :
    Except Failure (Reading OptionDecl) :=
  onFirst (fun token rest => registry.readCluster mode token rest) stream

def render (v : Value) : Except Failure (Option String) :=
  match v with
  | .pattern p => p.render.mapError fun e => .misuse (.joinedNothing e.index)
  | _ => refuse (.notPattern v.kindName)

/-- What a text reads back as, and whether tree and registry are still the same. -/
structure Reread where
  parsed : Usage.Parsed
  samePattern : Bool
  sameRegistry : Bool

/-- A tree, its usage text, and what that text reads back as, where it does and can be compared. -/
structure RoundTrip where
  first : Usage.Parsed
  text : Option String
  second : Except Failure Reread

/-- Whether two trees with shared leaves are the same. -/
def compare (p q : Pattern) : Except Failure Bool :=
  (p.toDatum.compare true q.toDatum).mapError .misuse

def textOrNull (s : Option String) : Value := s.elim .null .text

/-- Reads a text with the registry that a first reading left. -/
def reread (first : Usage.Parsed) (text : Value) : Except Failure Reread := do
  let second ← Usage.parse (← textFor .usage text) first.registry
  let same ← compare second.pattern first.pattern
  .ok ⟨second, same, second.registry.same true first.registry⟩

def roundTrip (text options : Value) : Except Failure RoundTrip := do
  let first ← usage text options
  let rendered ← render (.pattern first.pattern)
  .ok ⟨first, rendered, reread first (textOrNull rendered)⟩

/-- All stages from a help text to the leaves of a command line. -/
structure Stages where
  usageSection : String
  formal : String
  parsed : Usage.Parsed
  line : CommandLine.Parsed

def stages (doc argv : Value) (optionsFirst : Bool) : Except Failure Stages := do
  let usageSection ← usageSection doc
  let formal ← Usage.formal usageSection
  let described ← descriptions doc
  let parsed ← Usage.parse formal described
  let line ← CommandLine.ofTokens optionsFirst (← vector argv) parsed.registry
  .ok ⟨usageSection, formal, parsed, line⟩

def equal (a b : Value) : Except Failure Bool := do
  let eq ← (a.toDatum.compare false b.toDatum).mapError .misuse
  if eq then a.toDatum.hashed.mapError .misuse
  .ok eq

/-- The ordinal of a number; truth values are no numbers here. Ordinals are remembered by the hash of
the number. -/
def ordinal (v : Value) : Except Failure String := do
  v.toDatum.hashed.mapError .misuse
  let number? : Option Int := match v with
    | .datum (.int n) => some n
    | .datum (.code c) => some c.number
    | _ => none
  match number?.bind Text.ordinal? with
  | some s => .ok s
  | none => refuse .noOrdinal

/-- The value, or the default where it is absent. -/
def coalesce (v default : Value) : Value := if v.isUnset then default else v

def fault (kind : Option Fault.Code) (message : Value) (details : List (String × Value)) :
    Except Failure Fault :=
  match message with
  | .datum .unset => .ok (Fault.make kind none details)
  | .datum (.text s) => .ok (Fault.make kind (some s) details)
  | _ => refuse .badMessage

def amend (f : Fault) (unnamed : List Value) (changes : List (String × Value)) :
    Except Failure Fault := do
  let amended ← (f.amend changes).mapError .misuse
  if unnamed.isEmpty then .ok amended else refuse .unusedArguments

def code (number : Int) : Except Failure Fault.Code :=
  match if 0 ≤ number then Fault.Code.ofNumber? number.toNat else none with
  | some c => .ok c
  | none => refuse (.unknownCode number)

end Synopsis.Request
