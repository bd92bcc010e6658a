import Synopsis.Failure
import Synopsis.Text.Folding

/-! The usage section of a help text, and the one pattern that its lines make together. -/
namespace Synopsis.Usage

def marker : List Char := ['u', 's', 'a', 'g', 'e', ':']

/-- The number of markers in a text. No two of them overlap. -/
def markerCount : List Char → Nat
  | [] => 0
  | c :: cs => (if (Text.dropFolded marker (c :: cs)).isSome then 1 else 0) + markerCount cs

/-- What is behind the first marker. -/
def afterMarker : List Char → List Char
  | [] => []
  | c :: cs =>
    match Text.dropFolded marker (c :: cs) with
    | some rest => rest
    | none => afterMarker cs

/-- The text up to the first blank line: a line feed, any blanks, and another line feed. -/
def untilBlankLine : List Char → List Char
  | [] => []
  | c :: cs =>
    if c = '\n' ∧ '\n' ∈ cs.takeWhile Text.isBlank then [] else c :: untilBlankLine cs

/-- The usage section: behind the only marker, up to the first blank line, trimmed. -/
def sectionOf (doc : String) : Except Failure String :=
  match markerCount doc.toList with
  | 0 => .error (.complaint .usageNotFound)
  | 1 => .ok (Text.trim (String.ofList (untilBlankLine (afterMarker doc.toList))))
  | n => .error (.complaint (.duplicatedUsage n))

/-- The name of the program is the first word of the section. -/
def program? (usage : String) : Option String := (Text.words usage).head?

/-- One alternation of all usage lines: each occurrence of the program name begins a new one. -/
def formal (usage : String) : Except Failure String :=
  match Text.words usage with
  | [] => .error (.complaint .emptyUsage)
  | prog :: rest =>
    .ok ("( " ++ Text.join " " (rest.map fun w => if w = prog then ") | (" else w) ++ " )")

end Synopsis.Usage
