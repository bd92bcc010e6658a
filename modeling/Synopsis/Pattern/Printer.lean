import Synopsis.Pattern

/-! Trees as usage text. -/
namespace Synopsis.Pattern

/-- A text was to be joined from parts of which this one has none. -/
structure NoText where
  index : Nat
  deriving DecidableEq, Repr

/-- An option with a value is followed by a placeholder made of its name. -/
def placeholder (name : String) : String :=
  "<" ++ String.ofList (name.toList.dropWhile (· == '-')) ++ ">"

def optionText (o : OptionDecl) : String :=
  if o.takesValue then o.name ++ " " ++ placeholder o.name else o.name

/-- The character of a short name of two characters. -/
def clusterChar? (o : OptionDecl) : Option Char :=
  match o.short.map String.toList with
  | some ['-', c] => some c
  | _ => none

def optionsOf? : List Pattern → Option (List OptionDecl)
  | [] => some []
  | leaf (.option o) :: rest => (optionsOf? rest).map (o :: ·)
  | _ :: _ => none

/-- Options that can be written as one cluster: short names of two characters, and only the last one
may take a value. -/
def clusterText? (children : List Pattern) : Option String := do
  let options ← optionsOf? children
  let last ← options.getLast?
  let chars ← options.mapM clusterChar?
  if options.dropLast.any OptionDecl.takesValue then none
  else
    let cluster := String.ofList ('-' :: chars)
    if last.takesValue then some (cluster ++ " " ++ placeholder last.name) else some cluster

/-- The texts, or the place of the first part that has none. -/
def allTexts (index : Nat) : List (Option String) → Except NoText (List String)
  | [] => .ok []
  | none :: _ => .error ⟨index⟩
  | some s :: rest => (allTexts (index + 1) rest).map (s :: ·)

def joined (separator : String) (parts : List (Option String)) : Except NoText String :=
  (allTexts 0 parts).map (Text.join separator)

mutual
/-- The text of a node inside another one. An argument without a name has no text. -/
def inner : Pattern → Except NoText (Option String)
  | leaf (.argument name _) => .ok name
  | leaf (.command name _) => .ok (some name)
  | leaf (.option o) => .ok (some (optionText o))
  | leaf .anyOptions => .ok (some "options")
  | branch .required cs => do
    let s ← joined " " (← innerEach cs)
    .ok (some ("( " ++ s ++ " )"))
  | branch .optional cs => do
    let s ← joined " " (← innerEach cs)
    .ok (some ("[ " ++ s ++ " ]"))
  | branch .either cs => do
    let s ← joined " | " (← innerEach cs)
    .ok (some ("( " ++ s ++ " )"))
  | branch .oneOrMore [c] => do
    let s ← inner c
    .ok (some (s.getD "None" ++ " ..."))
  | branch .oneOrMore cs =>
    match clusterText? cs with
    | some s => .ok (some (s ++ " ..."))
    | none => do
      let s ← joined " " (← innerEach cs)
      .ok (some ("( " ++ s ++ " ) ..."))

def innerEach : List Pattern → Except NoText (List (Option String))
  | [] => .ok []
  | p :: rest => do
    let s ← inner p
    let ss ← innerEach rest
    .ok (s :: ss)
end

/-- The usage text of a tree: a sequence at the root is written bare. -/
def render : Pattern → Except NoText (Option String)
  | branch .required cs => do
    let s ← joined " " (← innerEach cs)
    .ok (some s)
  | p => inner p

end Synopsis.Pattern
