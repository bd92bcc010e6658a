import Synopsis.Failure

/-!
Options met in a usage pattern or on a command line, looked up in the registry.

An option met for the first time is added at the end of the registry; a known one is left as it is.
In a usage pattern the declaration itself is the result, on a command line a copy that holds the
value found there. A value is consumed in both.
-/
namespace Synopsis

/-- Where an option is met. -/
inductive Mode where
  | usage | commandLine
  deriving DecidableEq, Repr

/-- What a reader leaves: the tokens not yet read, the registry, and what it found. -/
structure Reading (α : Type) where
  rest : List Token
  registry : Registry
  found : List α
  deriving Repr

namespace Reading

def map {α β : Type} (f : α → β) (r : Reading α) : Reading β := ⟨r.rest, r.registry, r.found.map f⟩

/-- The same reading with another item found before the others. -/
def after {α : Type} (a : α) (r : Reading α) : Reading α := { r with found := a :: r.found }

end Reading

namespace Mode

def flag (mode : Mode) (o : OptionDecl) : OptionDecl :=
  match mode with
  | usage => o
  | commandLine => o.switchedOn

/-- An option that was met with a value. -/
def valued (mode : Mode) (o : OptionDecl) (value : String) : OptionDecl :=
  match mode with
  | usage => o
  | commandLine => o.holding value

end Mode

/-- A long option as it is typed: a name, and a value where one follows an equals sign. -/
structure Assignment where
  name : String
  value : Option String
  deriving DecidableEq, Repr

/-- An empty value counts as none; a second equals sign is refused. -/
def Assignment.read? (text : String) : Option Assignment :=
  let name := String.ofList (text.toList.takeWhile (· != '='))
  match text.toList.dropWhile (· != '=') with
  | [] => some ⟨name, none⟩
  | _ :: value =>
    if value.contains '=' then none
    else some ⟨name, if value.isEmpty then none else some (String.ofList value)⟩

def nextWord? : List Token → Option (String × List Token)
  | [] => none
  | t :: rest => if t.isWord then some (t.text, rest) else none

theorem length_of_nextWord? {tokens rest : List Token} {s : String}
    (h : nextWord? tokens = some (s, rest)) : rest.length < tokens.length := by
  cases tokens with
  | nil => simp [nextWord?] at h
  | cons t ts =>
    simp only [nextWord?] at h
    split at h
    · simp only [Option.some.injEq, Prod.mk.injEq] at h
      simp [← h.2]
    · simp at h

namespace Registry

def withLong (registry : Registry) (name : String) : List OptionDecl :=
  registry.filter (·.long == some name)

def withLongFrom (registry : Registry) (start : String) : List OptionDecl :=
  registry.filter fun o => o.long.any (Text.startsWith · start)

def withShort (registry : Registry) (name : String) : List OptionDecl :=
  registry.filter (·.short == some name)

/-- The options that a long name may mean: those of that name, or, on a command line where there is
none, those of which it is an abbreviation. -/
def candidates (registry : Registry) (mode : Mode) (name : String) : List OptionDecl :=
  if mode = .commandLine ∧ registry.withLong name = [] then registry.withLongFrom name
  else registry.withLong name

end Registry

/-- A new option of a long name: with a value where one was typed, else a flag. -/
def declareLong (name : String) (value : Option String) : Except Failure OptionDecl :=
  if h : isLongName name = true then
    .ok (OptionDecl.ofLong name
      (if value.isSome then .valued .int (.text "") else .flag .int false) h)
  else if name = "" then .error (.complaint (.malformed .nameless))
  else .error (.complaint (.malformed (.badLong (.text name))))

namespace Registry

/-- An option that is not in the registry yet. -/
def addLong (mode : Mode) (a : Assignment) (rest : List Token) (registry : Registry) :
    Except Failure (Reading OptionDecl) :=
  match declareLong a.name a.value with
  | .error e => .error e
  | .ok o =>
    let met := match a.value with
      | none => mode.flag o
      | some v => mode.valued o v
    .ok ⟨rest, registry ++ [o], [met]⟩

/-- The one option that is meant: a flag takes no value, and a value not typed with the option is the
next word. -/
def useLong (mode : Mode) (token : Token) (value : Option String) (o : OptionDecl)
    (rest : List Token) (registry : Registry) : Except Failure (Reading OptionDecl) :=
  if o.takesValue then
    match value with
    | some v => .ok ⟨rest, registry, [mode.valued o v]⟩
    | none =>
      match nextWord? rest with
      | some (v, rest') => .ok ⟨rest', registry, [mode.valued o v]⟩
      | none => .error (.complaint (.missingLongValue token (o.long.getD "")))
  else
    match value with
    | some _ => .error (.complaint (.unexpectedValue token (o.long.getD "")))
    | none => .ok ⟨rest, registry, [mode.flag o]⟩

/-- Reads a long option, `token`, in front of `rest`. -/
def readLong (mode : Mode) (token : Token) (rest : List Token) (registry : Registry) :
    Except Failure (Reading OptionDecl) :=
  match Assignment.read? token.text with
  | none => .error (.complaint (.unsplittable token))
  | some a =>
    match registry.candidates mode a.name with
    | [] => addLong mode a rest registry
    | [o] => useLong mode token a.value o rest registry
    | several =>
      .error (.complaint (.ambiguous token a.name (several.map fun o => o.long.getD "")))

/-- Reads the characters of a cluster of short options one by one. An unknown character is a new
flag; one that takes a value ends the cluster, and its value is the rest of the cluster or the next
word. -/
def readChars (mode : Mode) (token : Token) (rest : List Token) (registry : Registry) :
    List Char → Except Failure (Reading OptionDecl)
  | [] => .ok ⟨rest, registry, []⟩
  | c :: cs =>
    if h : c = '-' then .error (.complaint (.dashInCluster token))
    else
      match registry.withShort (OptionDecl.shortOf c) with
      | [] =>
        let o := OptionDecl.ofChar c h
        (readChars mode token rest (registry ++ [o]) cs).map (·.after (mode.flag o))
      | [o] =>
        if o.takesValue then
          match cs with
          | [] =>
            match nextWord? rest with
            | some (v, rest') => .ok ⟨rest', registry, [mode.valued o v]⟩
            | none => .error (.complaint (.missingShortValue token (OptionDecl.shortOf c)))
          | value => .ok ⟨rest, registry, [mode.valued o (String.ofList value)]⟩
        else (readChars mode token rest registry cs).map (·.after (mode.flag o))
      | several =>
        .error (.complaint (.repeatedShort token (OptionDecl.shortOf c) several.length))

/-- Reads a cluster of short options, `token`, in front of `rest`. -/
def readCluster (mode : Mode) (token : Token) (rest : List Token) (registry : Registry) :
    Except Failure (Reading OptionDecl) :=
  match token.text.toList with
  | '-' :: c :: cs =>
    if c = '-' then .error (.misuse (.notCluster token.text))
    else readChars mode token rest registry (c :: cs)
  | _ => .error (.misuse (.notCluster token.text))

/-- No reader gives back more tokens than it was given. -/
theorem readLong_length {mode : Mode} {token : Token} {rest : List Token} {registry : Registry}
    {r : Reading OptionDecl} (h : readLong mode token rest registry = .ok r) :
    r.rest.length ≤ rest.length := by
  unfold readLong at h
  split at h
  · cases h
  · split at h
    · unfold addLong at h
      split at h
      · cases h
      · cases h; exact Nat.le_refl _
    · unfold useLong at h
      split at h
      · split at h
        · cases h; exact Nat.le_refl _
        · split at h
          · rename_i hw
            cases h; exact Nat.le_of_lt (length_of_nextWord? hw)
          · cases h
      · split at h
        · cases h
        · cases h; exact Nat.le_refl _
    · cases h

theorem readChars_length {mode : Mode} {token : Token} {rest : List Token} {cs : List Char} :
    ∀ {registry : Registry} {r : Reading OptionDecl},
      readChars mode token rest registry cs = .ok r → r.rest.length ≤ rest.length := by
  induction cs with
  | nil => intro _ _ h; cases h; exact Nat.le_refl _
  | cons c cs ih =>
    intro registry r h
    unfold readChars at h
    split at h
    · cases h
    · split at h
      · cases hr : readChars mode token rest (registry ++ [OptionDecl.ofChar c ‹_›]) cs with
        | error e => simp [hr, Except.map] at h
        | ok s =>
          simp only [hr, Except.map, Except.ok.injEq] at h
          subst h; exact (ih hr : s.rest.length ≤ rest.length)
      · split at h
        · split at h
          · split at h
            · rename_i hw
              cases h; exact Nat.le_of_lt (length_of_nextWord? hw)
            · cases h
          · cases h; exact Nat.le_refl _
        · cases hr : readChars mode token rest registry cs with
          | error e => simp [hr, Except.map] at h
          | ok s =>
            simp only [hr, Except.map, Except.ok.injEq] at h
            subst h; exact (ih hr : s.rest.length ≤ rest.length)
      · cases h

theorem readCluster_length {mode : Mode} {token : Token} {rest : List Token} {registry : Registry}
    {r : Reading OptionDecl} (h : readCluster mode token rest registry = .ok r) :
    r.rest.length ≤ rest.length := by
  unfold readCluster at h
  split at h
  · split at h
    · cases h
    · exact readChars_length h
  · cases h

end Registry

end Synopsis
