import Synopsis.Resolution
import Synopsis.Text.Casing

/-!
The grammar of usage patterns.

    expression := sequence ( '|' sequence )*
    sequence   := ( atom [ '...' ] )*
    atom       := '(' expression ')' | '[' expression ']' | word

Each reader takes the tokens and the registry and gives back what is left of the one and what became
of the other. A reader of atoms consumes at least one token, which is why the descent ends.
-/
namespace Synopsis.Usage

inductive WordShape where
  | anyOptions | long | cluster | argument | command
  deriving DecidableEq, Repr

/-- A positional argument is named in angle brackets or in capitals. -/
def isArgumentName (s : String) : Bool :=
  (s.toList.head? == some '<' && s.toList.getLast? == some '>') || Text.isAllUpper s

/-- One or two dashes alone are commands. -/
def WordShape.of (s : String) : WordShape :=
  if s = "options" then anyOptions
  else if isLongName s then long
  else match s.toList with
    | '-' :: c :: _ => if c = '-' then command else cluster
    | _ => if isArgumentName s then argument else command

/-- Reads one word: the leaves it stands for, and for an option also the value behind it. -/
def readWord (token : Token) (rest : List Token) (registry : Registry) :
    Except Failure (Reading Leaf) :=
  match WordShape.of token.text with
  | .anyOptions => .ok ⟨rest, registry, [.anyOptions]⟩
  | .long => (registry.readLong .usage token rest).map (·.map Leaf.option)
  | .cluster => (registry.readCluster .usage token rest).map (·.map Leaf.option)
  | .argument => .ok ⟨rest, registry, [.argument (some token.text) .null]⟩
  | .command =>
    if token.text = "" then .error (.misuse .commandName)
    else .ok ⟨rest, registry, [.command token.text (.bool false)]⟩

theorem readWord_length {token : Token} {rest : List Token} {registry : Registry}
    {r : Reading Leaf} (h : readWord token rest registry = .ok r) :
    r.rest.length ≤ rest.length := by
  unfold readWord at h
  split at h
  · cases h; exact Nat.le_refl _
  · cases hr : registry.readLong .usage token rest with
    | error e => simp [hr, Except.map] at h
    | ok s =>
      simp only [hr, Except.map, Except.ok.injEq] at h
      subst h; exact Registry.readLong_length hr
  · cases hr : registry.readCluster .usage token rest with
    | error e => simp [hr, Except.map] at h
    | ok s =>
      simp only [hr, Except.map, Except.ok.injEq] at h
      subst h; exact Registry.readCluster_length hr
  · cases h; exact Nat.le_refl _
  · split at h
    · cases h
    · cases h; exact Nat.le_refl _

/-- A sequence of one is that one. -/
def grouped : List Pattern → Pattern
  | [p] => p
  | ps => .branch .required ps

/-- The branch that a sequence makes in an alternation: none if it is empty. -/
def branchOf (sequence : List Pattern) : List Pattern :=
  if sequence.isEmpty then [] else [grouped sequence]

/-- The expression that branches make: an alternation needs two. -/
def alternation : List Pattern → List Pattern
  | p :: q :: rest => [.branch .either (p :: q :: rest)]
  | ps => ps

/-- The group that a pair of brackets makes. -/
def enclosed (opener : String) (inside : List Pattern) : Pattern :=
  if opener = "(" then grouped inside else .branch .optional inside

/-- Whether a sequence goes on: an opener or a word is in front. -/
def beginsAtom : List Token → Bool
  | [] => false
  | t :: _ => t.kind == .opener || t.kind == .word

/-- What is behind a token of a kind that is in front. -/
def behind? (kind : TokenKind) : List Token → Option (List Token)
  | [] => none
  | t :: rest => if t.kind = kind then some rest else none

theorem length_of_behind? {kind : TokenKind} {tokens rest : List Token}
    (h : behind? kind tokens = some rest) : rest.length < tokens.length := by
  cases tokens with
  | nil => simp [behind?] at h
  | cons t ts =>
    simp only [behind?] at h
    split at h
    · simp only [Option.some.injEq] at h; simp [h]
    · simp at h

/-- An ellipsis behind an atom repeats it. -/
def repeated (atom : Reading Pattern) : Reading Pattern :=
  match behind? .ellipsis atom.rest with
  | some rest => ⟨rest, atom.registry, [.branch .oneOrMore atom.found]⟩
  | none => atom

theorem repeated_length (atom : Reading Pattern) :
    (repeated atom).rest.length ≤ atom.rest.length := by
  unfold repeated
  split
  · rename_i h; exact Nat.le_of_lt (length_of_behind? h)
  · exact Nat.le_refl _

/-- A reading that leaves fewer tokens than there were. -/
abbrev Shorter (tokens : List Token) :=
  { r : Reading Pattern // r.rest.length < tokens.length }

/-- A reading that leaves no more tokens than there were. -/
abbrev NoLonger (tokens : List Token) :=
  { r : Reading Pattern // r.rest.length ≤ tokens.length }

mutual
def atom (tokens : List Token) (registry : Registry) : Except Failure (Shorter tokens) :=
  match tokens with
  | [] => .error (.misuse .emptyStream)
  | token :: rest =>
    match token.kind with
    | .opener =>
      match Token.closerOf? token.text with
      | none => .error (.misuse (.unknownOpener token.text))
      | some closer =>
        match expression rest registry with
        | .error e => .error e
        | .ok ⟨⟨next :: after, registry', inside⟩, h⟩ =>
          if next.text = closer then
            .ok ⟨⟨after, registry', [enclosed token.text inside]⟩, by simp at h ⊢; omega⟩
          else .error (.complaint (.missingEnclosure token closer))
        | .ok _ => .error (.complaint (.missingEnclosure token closer))
    | .word =>
      match h : readWord token rest registry with
      | .error e => .error e
      | .ok r =>
        .ok ⟨r.map Pattern.leaf, by have := readWord_length h; simp [Reading.map]; omega⟩
    | _ => .error (.misuse (.notAtomStart token.text))
termination_by 3 * tokens.length + 0

def sequence (tokens : List Token) (registry : Registry) : Except Failure (NoLonger tokens) :=
  if beginsAtom tokens then
    match atom tokens registry with
    | .error e => .error e
    | .ok ⟨a, h⟩ =>
      have hr := repeated_length a
      match sequence (repeated a).rest (repeated a).registry with
      | .error e => .error e
      | .ok ⟨s, hs⟩ =>
        .ok ⟨{ s with found := (repeated a).found ++ s.found }, by simp; omega⟩
  else .ok ⟨⟨tokens, registry, []⟩, Nat.le_refl _⟩
termination_by 3 * tokens.length + 1

/-- The branches behind each pipe that is in front. -/
def branches (tokens : List Token) (registry : Registry) : Except Failure (NoLonger tokens) :=
  match hp : behind? .pipe tokens with
  | none => .ok ⟨⟨tokens, registry, []⟩, Nat.le_refl _⟩
  | some rest =>
    have hr := length_of_behind? hp
    match sequence rest registry with
    | .error e => .error e
    | .ok ⟨s, hs⟩ =>
      match branches s.rest s.registry with
      | .error e => .error e
      | .ok ⟨b, hb⟩ => .ok ⟨{ b with found := branchOf s.found ++ b.found }, by simp; omega⟩
termination_by 3 * tokens.length + 0

def expression (tokens : List Token) (registry : Registry) : Except Failure (NoLonger tokens) :=
  match sequence tokens registry with
  | .error e => .error e
  | .ok ⟨s, hs⟩ =>
    if (behind? .pipe s.rest).isNone then .ok ⟨s, hs⟩
    else
      match branches s.rest s.registry with
      | .error e => .error e
      | .ok ⟨b, hb⟩ =>
        .ok ⟨{ b with found := alternation (branchOf s.found ++ b.found) }, by simp; omega⟩
termination_by 3 * tokens.length + 2
end

/-- Reads an atom; there has to be one. -/
def readAtom (tokens : List Token) (registry : Registry) : Except Failure (Reading Pattern) :=
  (atom tokens registry).map (·.val)

/-- Reads atoms up to a closer, a pipe, an ellipsis out of place or the end. -/
def readSequence (tokens : List Token) (registry : Registry) : Except Failure (Reading Pattern) :=
  (sequence tokens registry).map (·.val)

/-- Reads an alternation of sequences; a sequence alone is given back as it is. -/
def readExpression (tokens : List Token) (registry : Registry) :
    Except Failure (Reading Pattern) :=
  (expression tokens registry).map (·.val)

/-- A tree and the registry with the options that its usage was the first to mention. -/
structure Parsed where
  pattern : Pattern
  registry : Registry
  deriving Repr

def ofTokens (tokens : List Token) (registry : Registry) : Except Failure Parsed :=
  match readExpression tokens registry with
  | .error e => .error e
  | .ok r =>
    match r.rest with
    | [] => .ok ⟨.branch .required r.found, r.registry⟩
    | first :: rest => .error (.complaint (.unconsumed first rest))

/-- Reads a usage pattern, however deep its brackets are nested: a limit on the depth of recursion is
left out. -/
def parse (usage : String) (registry : Registry) : Except Failure Parsed :=
  ofTokens (Token.scan usage) registry

end Synopsis.Usage
