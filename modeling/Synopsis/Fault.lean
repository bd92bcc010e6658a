import Synopsis.Entries
import Synopsis.Failure
import Synopsis.Text.Ordinal

/-! Faults: what is reported about a complaint, with a message, a code and details. -/
namespace Synopsis

/-- A fault of a kind; one without a kind has no code of its own. The details keep the order in which
they were given. -/
structure Fault where
  kind : Option Fault.Code
  message : Option String
  code : Value
  details : List (String × Value)
  deriving Repr

namespace Fault

def ownCode (kind : Option Code) : Value := .datum (kind.elim .unset .code)

/-- The fault with other details; a code among them becomes its code. -/
def withDetails (f : Fault) (changes : List (String × Value)) : Fault :=
  { f with
    code := (changes.lookup "code").getD f.code
    details := overlay f.details (changes.filter (·.1 != "code")) }

/-- The fault with other details, where none of them goes by the name of the fault itself. -/
def amend (f : Fault) (changes : List (String × Value)) : Except Misuse Fault :=
  if changes.any (·.1 == "self") then
    .error (.repeatedParameter "PatternException.__replace__()" "self")
  else .ok (f.withDetails changes)

def make (kind : Option Code) (message : Option String) (details : List (String × Value)) : Fault :=
  withDetails ⟨kind, message, ownCode kind, []⟩ details

def detail? (f : Fault) (key : String) : Option Value := f.details.lookup key

end Fault

/-- The place of a token in words, nothing for a token without a place. -/
def Token.whereabouts (t : Token) : Except Misuse String :=
  if t.index = 0 then .ok ""
  else match Text.ordinal? t.index with
    | some word => .ok (" at " ++ word ++ " position")
    | none => .error .noOrdinal

/-- A fault with a title and a hint before its other details. -/
def Fault.titled (code : Fault.Code) (title message hint : String)
    (details : List (String × Value)) : Fault :=
  Fault.make (some code) (some message)
    (("title", .text title) :: ("hint", .text hint) :: details)

def Malformation.report : Malformation → Fault
  | nameless =>
    malformed "option must declare a short or a long name"
      "declare it as -x, --xxx or -x, --xxx" []
  | badShort given =>
    malformed ("bad short option name " ++ given.written)
      "short options are a single dash followed by one character (for example: -v)"
      [("token", given)]
  | badLong given =>
    malformed ("bad long option name " ++ given.written)
      "long options are two dashes followed by a name (for example: --verbose)"
      [("token", given)]
  | badCount name given =>
    malformed ("option " ++ Text.quoted name ++ " takes 0 or 1 argument, not " ++ given.written)
      "an option is either a flag or takes exactly one value" [("token", .text name)]
  | flagValue name =>
    malformed ("flag " ++ Text.quoted name ++ " can only hold a boolean value")
      ("declare an argument (for example: " ++ name ++ "=<value>) to accept values")
      [("token", .text name)]
where
  malformed (message hint : String) (details : List (String × Value)) : Fault :=
    Fault.titled .malformedOption "malformed option" message hint details

/-- The text under which a leftover node is named: its name, or its value where it has none. -/
def Pattern.callSign : Pattern → Except Misuse String
  | .branch g _ => .error (.noAttribute (NodeKind.group g).title "name")
  | .leaf l =>
    match l.name?, l.value? with
    | some name, _ => .ok (Text.quoted name)
    | none, some v => .ok v.written
    | none, none => .error (.noAttribute l.kind.title "value")

/-- The fault that a complaint is reported as. Only a token with a negative place, or a leftover
node without name and value, cannot be put into words. -/
def Complaint.report : Complaint → Except Misuse Fault
  | usageNotFound =>
    .ok (Fault.titled .usageNotFound "usage not found" "'usage:' (case-insensitive) not found"
      "start the usage section with 'Usage:' followed by the program name" [])
  | duplicatedUsage count =>
    .ok (Fault.titled .duplicatedUsage "duplicated usage"
      "more than one 'usage:' (case-insensitive) found"
      "keep a single 'Usage:' section and list every invocation under it"
      [("count", .datum (.int count))])
  | emptyUsage =>
    .ok (Fault.titled .emptyUsage "empty usage" "the usage section is empty"
      "write at least the program name after 'Usage:'" [])
  | blankDescription line =>
    .ok (Fault.titled .malformedOption "malformed option" "empty option description line"
      "describe options as '-x, --xxx=ARG  description'" [("line", .text line)])
  | namelessDescription names line =>
    .ok (Fault.titled .malformedOption "malformed option"
      ("no option name in " ++ Text.quoted names)
      "start the line with -x and/or --xxx" [("line", .text line)])
  | malformed why => .ok why.report
  | unsplittable token => do
    let place ← token.whereabouts
    .ok (Fault.titled .unparsableOption "unparsable option"
      ("cannot split option " ++ Text.quoted token.text ++ place ++ " into a name and a value")
      "use a single '=' between the option and its value (for example: --name=value)"
      [("token", .text token.text)])
  | dashInCluster token => do
    let place ← token.whereabouts
    .ok (Fault.titled .unparsableOption "unparsable option"
      ("cannot read " ++ Text.quoted token.text ++ place ++
        " as short options, '-' is not an option name")
      "pass each short option on its own (for example: -a -b)"
      [("token", .text token.text)])
  | repeatedShort token short count => do
    let place ← token.whereabouts
    .ok (Fault.titled .unparsableOption "unparsable option"
      ("option " ++ Text.quoted short ++ place ++ " is declared " ++ Nat.repr count ++ " times")
      "declare each short option once in the options section"
      [("token", .text token.text)])
  | unexpectedValue token long => do
    let place ← token.whereabouts
    .ok (Fault.titled .unexpectedArgument "flag cannot take a value"
      ("flag " ++ Text.quoted long ++ place ++ " cannot have a value")
      ("remove everything from '=' (for example: " ++ long ++ ")")
      [("token", .text token.text)])
  | missingLongValue token long => do
    let place ← token.whereabouts
    .ok (Fault.titled .missingArgument "missing option value"
      ("option " ++ Text.quoted long ++ place ++ " requires an argument")
      ("pass a value after '=' or a space (for example: " ++ long ++ "=<value>)")
      [("token", .text token.text)])
  | missingShortValue token short => do
    let place ← token.whereabouts
    .ok (Fault.titled .missingArgument "missing option value"
      ("option " ++ Text.quoted short ++ place ++ " requires an argument")
      ("pass the value right after it (for example: " ++ short ++ "VALUE or " ++ short ++
        " VALUE)")
      [("token", .text token.text)])
  | ambiguous token name candidates => do
    let place ← token.whereabouts
    .ok (Fault.titled .ambiguousOption "ambiguous option"
      ("option " ++ Text.quoted name ++ place ++ " is ambiguous, it could be " ++
        Text.join ", " (candidates.map Text.quoted))
      ("spell out the full option name (for example: " ++ candidates.headD "" ++ ")")
      [("token", .text token.text), ("candidates", .tuple (candidates.map Value.text))])
  | missingEnclosure opener closer => do
    let place ← opener.whereabouts
    .ok (Fault.titled .missingEnclosure "unbalanced grouping"
      ("missing " ++ Text.quoted closer ++ " for the " ++ Text.quoted opener.text ++ " opened" ++
        place)
      ("close the group with " ++ Text.quoted closer) [("enclosure", .text closer)])
  | unconsumed first rest => do
    let place ← first.whereabouts
    .ok (Fault.titled .unconsumedTokens "unconsumed tokens"
      ("unexpected " ++ Text.quoted first.text ++ place ++ " in the usage pattern")
      "check that every ')' and ']' closes an earlier '(' or '['"
      [("tokens", .tuple ((first :: rest).map fun t => .text t.text))])
  | unmatched prog =>
    .ok (Fault.titled .unmatchedPattern "pattern not matched"
      "the command line does not match any usage"
      ("run '" ++ prog ++ " --help' to see the expected usage") [])
  | leftover prog left => do
    let names ← left.mapM Pattern.callSign
    .ok (Fault.titled .unconsumedTokens "unconsumed tokens"
      ("unexpected " ++ Text.join " " names)
      ("remove the extra arguments or run '" ++ prog ++ " --help'")
      [("tokens", .tuple (left.map Value.pattern))])

/-- What a caller sees of a failure: a fault, or the misuse. -/
def Failure.report : Failure → Except Misuse Fault
  | complaint c => c.report
  | misuse m => .error m

end Synopsis
