import Synopsis.Resolution

/-! Command lines: options with the values found there, and positionals, in the order of the
line. -/
namespace Synopsis.CommandLine

inductive WordShape where
  | stop | long | cluster | positional
  deriving DecidableEq, Repr

/-- Two dashes alone end the options; one dash alone is a positional. -/
def WordShape.of (s : String) : WordShape :=
  match s.toList with
  | ['-', '-'] => stop
  | '-' :: '-' :: _ => long
  | '-' :: _ :: _ => cluster
  | _ => positional

def positional (t : Token) : Leaf := .argument none (.text t.text)

/-- The leaves of a command line and the registry with the options it was the first to mention. -/
structure Parsed where
  leaves : List Leaf
  registry : Registry
  deriving Repr

def Parsed.behind (found : List Leaf) (p : Parsed) : Parsed := { p with leaves := found ++ p.leaves }

/-- Reads a command line. Where options come first, the first positional ends them. -/
def ofTokens (optionsFirst : Bool) (tokens : List Token) (registry : Registry) :
    Except Failure Parsed :=
  match tokens with
  | [] => .ok ⟨[], registry⟩
  | token :: rest =>
    match WordShape.of token.text with
    | .stop => .ok ⟨(token :: rest).map positional, registry⟩
    | .long =>
      match h : registry.readLong .commandLine token rest with
      | .error e => .error e
      | .ok r =>
        have := Registry.readLong_length h
        (ofTokens optionsFirst r.rest r.registry).map (·.behind (r.found.map Leaf.option))
    | .cluster =>
      match h : registry.readCluster .commandLine token rest with
      | .error e => .error e
      | .ok r =>
        have := Registry.readCluster_length h
        (ofTokens optionsFirst r.rest r.registry).map (·.behind (r.found.map Leaf.option))
    | .positional =>
      if optionsFirst then .ok ⟨(token :: rest).map positional, registry⟩
      else (ofTokens optionsFirst rest registry).map (·.behind [positional token])
termination_by tokens.length

def parse (optionsFirst : Bool) (argv : List String) (registry : Registry) :
    Except Failure Parsed :=
  ofTokens optionsFirst (Token.ofWords argv) registry

end Synopsis.CommandLine
