import Synopsis.Sample

/-! The demonstration program: the tree of the sample, then the leaves and the registry. -/
open Synopsis

def main : IO Unit := do
  match Sample.demonstration with
  | .ok (pattern, parsed) =>
    IO.println pattern.written
    let leaves := parsed.leaves.map Leaf.written
    let options := parsed.registry.map fun o => (Leaf.option o).written
    IO.println ("(" ++ Text.join ", " leaves ++ ")")
    IO.println ("(" ++ Text.join ", " options ++ ")")
  | .error f =>
    match f.report with
    | .ok fault => IO.eprintln (fault.message.getD "")
    | .error m => IO.eprintln m.message
