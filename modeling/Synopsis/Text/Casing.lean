import Synopsis.Text.CaseMaps
import Synopsis.Text.Letters

/-! Lower case and title case of whole texts. A capital sigma depends on its neighbours: at the end
of a word its lower case is the final form. -/
namespace Synopsis.Text

/-- Whether the nearest character that is not passed over exists and is cased. -/
def nearestCased (cs : List Char) : Bool :=
  match cs.dropWhile isCaseIgnorable with
  | [] => false
  | c :: _ => isCased c

/-- The lower case of a character; `before` is the text before it, nearest first, and `after` the
text behind it. -/
def lowerWithin (before : List Char) (c : Char) (after : List Char) : List Char :=
  if c = 'Σ' then [if nearestCased before && !nearestCased after then 'ς' else 'σ']
  else lowerChar c

def lowerFrom (before : List Char) : List Char → List Char
  | [] => []
  | c :: rest => lowerWithin before c rest ++ lowerFrom (c :: before) rest

def lower (s : String) : String := String.ofList (lowerFrom [] s.toList)

def titleFrom (before : List Char) (inside : Bool) : List Char → List Char
  | [] => []
  | c :: rest =>
    (if inside then lowerWithin before c rest else titleChar c) ++
      titleFrom (c :: before) (isCased c) rest

/-- The text with the first letter of every run of cased characters in title case and the others in
lower case. -/
def titled (s : String) : String := String.ofList (titleFrom [] false s.toList)

/-- Some character is upper case and none is lower or title case. -/
def isAllUpper (s : String) : Bool :=
  s.toList.any isUpper && s.toList.all fun c => !isLower c && !isTitle c

/-- The text in lower case with a hyphen before each ASCII capital that is not its first
character. -/
def hyphenated (s : String) : String :=
  match s.toList with
  | [] => ""
  | c :: rest =>
    let spaced := rest.flatMap fun d => if 'A' ≤ d ∧ d ≤ 'Z' then ['-', d] else [d]
    lower (String.ofList (c :: spaced))

end Synopsis.Text
