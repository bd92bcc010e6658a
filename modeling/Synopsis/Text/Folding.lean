/-! Words recognised in any mixture of cases. -/
namespace Synopsis.Text

/-- Whether a character is a small ASCII letter in either case; the long s is a form of s. Other
characters only match themselves. -/
def foldsTo (small c : Char) : Bool := c.toLower == small || (small == 's' && c == 'ſ')

/-- What is behind a word, given in small letters, at the head of a text. -/
def dropFolded : List Char → List Char → Option (List Char)
  | [], cs => some cs
  | _ :: _, [] => none
  | w :: ws, c :: cs => if foldsTo w c then dropFolded ws cs else none

end Synopsis.Text
