import Synopsis.Request

/-! A help text to try things on. -/
namespace Synopsis.Sample

def helpText : String := "
Naval Fate.

Usage:
  naval_fate ship new <name>...
  naval_fate ship <name> move <x> <y> [--speed=<kn>]
  naval_fate mine (set|remove) <x> <y> [--moored | --drifting]

Options:
  -h --help     Show this screen.
  --speed=<kn>  Speed in knots [default: 10].
  --moored      Moored (anchored) mine.
  --drifting    Drifting mine.
"

def line : String := "ship Guardian move 10 50 --speed=20"

/-- The tree of the help text and what the line gives, registry included. -/
def demonstration : Except Failure (Pattern × CommandLine.Parsed) := do
  let s ← Request.stages (.text helpText) (.text line) false
  .ok (s.parsed.pattern, s.line)

end Synopsis.Sample
