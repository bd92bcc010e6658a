import Synopsis.Request

/-! A registry and a tree that a series of steps builds up. A step that fails, or that could not be
made out in the first place, changes nothing. -/
namespace Synopsis.Session

structure State where
  registry : Registry
  pattern : Option Pattern

def State.initial : State := ⟨[], none⟩

inductive Step where
  | describe (doc : Value)
  | option (line : Value) (strict : Bool)
  | usage (doc : Value)
  | pattern (text : Value)
  | line (argv : Value) (optionsFirst : Bool)
  | format
  | reparse
  | select (selectors : List Selector)
  | bind (index : Int) (value : Value)

inductive Answer where
  | done
  | option (o : Option OptionDecl)
  | usage (formal : String) (pattern : Pattern)
  | pattern (p : Pattern)
  | leaves (ls : List Leaf)
  | text (s : Option String)
  | reparsed (p : Pattern) (same : Bool)
  | selected (ls : List Leaf)
  | failed (f : Failure)

/-- The tree as a value, nothing where there is none yet. -/
def State.current (s : State) : Value := s.pattern.elim .null .pattern

def State.advance (s : State) : Step → Except Failure (State × Answer)
  | .describe doc => do
    let registry ← Request.descriptions doc
    .ok ({ s with registry }, .done)
  | .option line strict => do
    let o ← Request.description line strict
    .ok ({ s with registry := s.registry ++ o.toList }, .option o)
  | .usage doc => do
    let formal ← Usage.formal (← Request.usageSection doc)
    let parsed ← Usage.parse formal s.registry
    .ok (⟨parsed.registry, some parsed.pattern⟩, .usage formal parsed.pattern)
  | .pattern text => do
    let parsed ← Usage.parse (← Request.textFor .usage text) s.registry
    .ok (⟨parsed.registry, some parsed.pattern⟩, .pattern parsed.pattern)
  | .line argv optionsFirst => do
    let parsed ← CommandLine.ofTokens optionsFirst (← Request.vector argv) s.registry
    .ok ({ s with registry := parsed.registry }, .leaves parsed.leaves)
  | .format => do
    let text ← Request.render s.current
    .ok (s, .text text)
  | .reparse => do
    let text ← Request.render s.current
    let usage ← Request.textFor .usage (Request.textOrNull text)
    let parsed ← Usage.parse usage s.registry
    let same ← match s.pattern with
      | some p => Request.compare parsed.pattern p
      | none => .ok false
    .ok (⟨parsed.registry, some parsed.pattern⟩, .reparsed parsed.pattern same)
  | .select selectors =>
    match s.pattern with
    | none => .error (.misuse (.noAttribute s.current.kindName "flat"))
    | some p => .ok (s, .selected (p.select selectors))
  | .bind index value =>
    match (if 0 ≤ index then s.registry[index.toNat]? else none) with
    | none => .ok (s, .done)
    | some o => do
      let o ← Construction.rebind o value
      .ok ({ s with registry := s.registry.set index.toNat o }, .done)

/-- The answers of the steps, each with the registry behind it. -/
def State.run (s : State) : List (Except Failure Step) → List (Answer × Registry)
  | [] => []
  | step :: rest =>
    match step.bind s.advance with
    | .ok (s', a) => (a, s'.registry) :: s'.run rest
    | .error f => (.failed f, s.registry) :: s.run rest

end Synopsis.Session
