import Synopsis.Text.Words

/-!
Texts with styles: one for the whole, and spans of others. What is kept of a text follows the terminal
library that shows it: a text made of a string loses its control characters, while one put together
from texts keeps what is in them.
-/
namespace Synopsis

/-- A style on the characters from `start` up to but not including `stop`. -/
structure Span where
  start : Nat
  stop : Nat
  style : String
  deriving DecidableEq, Repr

def Span.shift (offset : Nat) (s : Span) : Span := ⟨s.start + offset, s.stop + offset, s.style⟩

structure StyledText where
  plain : String
  style : String
  spans : List Span
  deriving DecidableEq, Repr

namespace StyledText

def empty : StyledText := ⟨"", "", []⟩

/-- The characters that move the cursor or ring the bell. -/
def isControl (c : Char) : Bool :=
  let n := c.toNat
  n == 0x07 || n == 0x08 || n == 0x0B || n == 0x0C || n == 0x0D

/-- A text made of a string. -/
def of (text style : String) : StyledText :=
  ⟨String.ofList (text.toList.filter (!isControl ·)), style, []⟩

/-- A piece behind a text: its style becomes a span, unless the style or the piece is empty. -/
def append (t piece : StyledText) : StyledText :=
  if piece.plain = "" then t
  else
    let offset := t.plain.length
    let own := if piece.style = "" then []
      else [⟨offset, offset + piece.plain.length, piece.style⟩]
    ⟨t.plain ++ piece.plain, t.style, t.spans ++ own ++ piece.spans.map (Span.shift offset)⟩

def assemble (pieces : List StyledText) : StyledText := pieces.foldl append empty

end StyledText

end Synopsis
