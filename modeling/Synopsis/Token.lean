import Synopsis.Text.Words

/-! Tokens of usage patterns and of command lines. -/
namespace Synopsis

inductive TokenKind where
  | opener | closer | pipe | ellipsis | word
  deriving DecidableEq, Repr

/-- A piece of text with its kind and its one-based place in the stream; zero stands for no place. -/
structure Token where
  kind : TokenKind
  text : String
  index : Int
  deriving DecidableEq, Repr

namespace TokenKind

def of (text : String) : TokenKind :=
  if text = "(" ∨ text = "[" then opener
  else if text = ")" ∨ text = "]" then closer
  else if text = "|" then pipe
  else if text = "..." then ellipsis
  else word

end TokenKind

namespace Token

def isWord (t : Token) : Bool := t.kind == .word

def isBracket (c : Char) : Bool := c == '[' || c == ']' || c == '(' || c == ')' || c == '|'

/-- The text with a space on either side of each delimiter, found from left to right. -/
@[simp] def spaced : List Char → List Char
  | [] => []
  | '.' :: '.' :: '.' :: rest => ' ' :: '.' :: '.' :: '.' :: ' ' :: spaced rest
  | c :: rest => if isBracket c then ' ' :: c :: ' ' :: spaced rest else c :: spaced rest

/-- The pieces of a stream, numbered from one, each with the kind that `kindOf` gives it. -/
def number (kindOf : String → TokenKind) (texts : List String) : List Token :=
  (texts.zipIdx 1).map fun (text, i) => ⟨kindOf text, text, i⟩

/-- The tokens of a usage pattern: delimiters stand alone, blanks separate the words. -/
def scan (source : String) : List Token :=
  number TokenKind.of (Text.words (String.ofList (spaced source.toList)))

/-- An argument vector as tokens, one word for each text. -/
def ofWords (texts : List String) : List Token := number (fun _ => .word) texts

/-- The tokens of a command line given as one text. -/
def scanPlain (source : String) : List Token := ofWords (Text.words source)

/-- The closer that an opener asks for. -/
def closerOf? (text : String) : Option String :=
  if text = "(" then some ")" else if text = "[" then some "]" else none

end Token

end Synopsis
