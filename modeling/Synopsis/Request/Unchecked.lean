import Synopsis.Request

/-! The readings that take a registry as it is handed over. What is in it matters only where a switch
is looked up: there, the first entry that is no option is in the way. -/
namespace Synopsis.Request

/-- What a reader leaves, with the entries of a registry of which nothing is known. -/
structure Unchecked (α : Type) where
  rest : List Token
  entries : List Value
  found : List α

def Unchecked.ofReading {α : Type} (r : Reading α) : Unchecked α :=
  ⟨r.rest, r.registry.map fun o => .leaf (.option o), r.found⟩

/-- A long option looked up past a stranger. -/
def obstructedLong (stranger : Value) (token : Token) : Failure :=
  match Assignment.read? token.text with
  | none => .complaint (.unsplittable token)
  | some _ => .misuse (stranger.lacks "long")

/-- A cluster looked up past a stranger. -/
def obstructedCluster (stranger : Value) (token : Token) : Failure :=
  match Usage.WordShape.of token.text with
  | .cluster => .misuse (stranger.lacks "short")
  | _ => .misuse (.notCluster token.text)

def uncheckedLong (mode : Mode) (stream : List Token) (options : Value) :
    Except Failure (Unchecked OptionDecl) := do
  match optionsAmong (← entriesOf options) with
  | .ok registry => (long mode stream registry).map .ofReading
  | .error stranger => onFirst (fun token _ => .error (obstructedLong stranger token)) stream

def uncheckedCluster (mode : Mode) (stream : List Token) (options : Value) :
    Except Failure (Unchecked OptionDecl) := do
  match optionsAmong (← entriesOf options) with
  | .ok registry => (cluster mode stream registry).map .ofReading
  | .error stranger => onFirst (fun token _ => .error (obstructedCluster stranger token)) stream

def isSwitch (t : Token) : Bool :=
  t.isWord && (match Usage.WordShape.of t.text with | .long | .cluster => true | _ => false)

/-- The failure of a switch that is looked up past a stranger. -/
def obstructed (stranger : Value) (token : Token) : Failure :=
  match Usage.WordShape.of token.text with
  | .cluster => obstructedCluster stranger token
  | _ => obstructedLong stranger token

/-- A switch that cannot be read, whatever the registry is. -/
def unreadable : Token := ⟨.word, "--==", 0⟩

/-- Reads patterns past a stranger: that goes well up to the first switch. A switch that cannot be
read in its place tells whether the reader gets there. -/
def readPast (read : List Token → Registry → Except Failure (Reading Pattern)) (stranger : Value)
    (stream : List Token) : Except Failure (Reading Pattern) :=
  match stream.findIdx? isSwitch with
  | none => read stream []
  | some i =>
    match read (stream.set i unreadable) [] with
    | .error (.complaint (.unsplittable _)) =>
      .error (obstructed stranger (stream.getD i unreadable))
    | .error f => .error f
    | .ok r => .ok { r with rest := stream.drop (stream.length - r.rest.length) }

def uncheckedPatterns (read : List Token → Registry → Except Failure (Reading Pattern))
    (stream : List Token) (options : Value) : Except Failure (Unchecked Pattern) := do
  let entries ← entriesOf options
  match optionsAmong entries with
  | .ok registry => (read stream registry).map .ofReading
  | .error stranger => (readPast read stranger stream).map fun r => ⟨r.rest, entries, r.found⟩

end Synopsis.Request
