import Synopsis.Token
import Synopsis.Value

/-! Everything that can go wrong, by cause: complaints about the input, and misuse of an
operation. -/
namespace Synopsis

/-- Why an option cannot be declared. -/
inductive Malformation where
  | nameless
  | badShort (given : Value)
  | badLong (given : Value)
  | badCount (name : String) (given : Value)
  | flagValue (name : String)
  deriving Repr

/-- What is wrong with a help text or a command line. -/
inductive Complaint where
  | usageNotFound
  | duplicatedUsage (count : Nat)
  | emptyUsage
  | blankDescription (line : String)
  | namelessDescription (names line : String)
  | malformed (why : Malformation)
  | unsplittable (token : Token)
  | dashInCluster (token : Token)
  | repeatedShort (token : Token) (short : String) (count : Nat)
  | unexpectedValue (token : Token) (long : String)
  | missingLongValue (token : Token) (long : String)
  | missingShortValue (token : Token) (short : String)
  | ambiguous (token : Token) (name : String) (candidates : List String)
  | missingEnclosure (opener : Token) (closer : String)
  | unconsumed (first : Token) (rest : List Token)
  | unmatched (prog : String)
  | leftover (prog : String) (left : List Pattern)
  deriving Repr

/-- The operations that check what they are given. -/
inductive Entry where
  | tokens | value | default | description | argument | descriptions | usageSection | formalUsage
  | usage | commandLine | invocation
  deriving DecidableEq, Repr

def Entry.label : Entry → String
  | tokens => "tokenize()"
  | value => "parse_value()"
  | default => "parse_default()"
  | description => "parse_option()"
  | argument => "parse_argument()"
  | descriptions => "parse_option_descriptions()"
  | usageSection => "printable_usage()"
  | formalUsage => "formal_usage()"
  | usage => "parse_pattern()"
  | commandLine => "parse_argv()"
  | invocation => "docopt()"

/-- The name of the text among the arguments of an operation. -/
def Entry.textSubject (e : Entry) : String :=
  match e with
  | .usage | .commandLine | .invocation => e.label ++ " first argument"
  | _ => e.label ++ " argument"

/-- How an operation was used in a way that it does not allow. What is raised outside of all operations,
by code that they call, counts as misuse too. -/
inductive Misuse where
  | emptyStream
  | unknownOpener (text : String)
  | notAtomStart (text : String)
  | notCluster (text : String)
  | noOrdinal
  | digitLimit (digits : Nat)
  | notText (entry : Entry)
  | notTexts
  | notVector
  | notOptions (entry : Entry)
  | notIterable (kind : String)
  | notPattern (kind : String)
  | joinedNothing (index : Nat)
  | unhashable (kind : String)
  | matcherNotCallable
  | kindAsMatcher (kind : ScalarKind)
  | builtinAsMatcher
  | noAttribute (kind feature : String)
  | kindLacks (kind : ScalarKind) (feature : String)
  | unbound (kind : ScalarKind) (feature : String)
  | argumentName
  | commandName
  | unknownField (label field : String)
  | onlyChildren (label : String)
  | childrenTwice (label : String)
  | notChild (label kind : String)
  | unknownParameter (callee parameter : String)
  | repeatedParameter (callee parameter : String)
  | missingParameter (callee parameter : String)
  | tooManyArguments (callee : String) (least most given : Nat)
  | immutable (label : String)
  | sealed (title : String)
  | brokenTitle
  | unimplemented
  | notCode
  | unknownCode (number : Int)
  | notSurfaceable
  | badMessage
  | unusedArguments
  | renameTarget
  | renameName
  | renameFixed
  | renamerName
  | renamerTarget
  | renameCount (given : Nat)
  | noUnion (left right : String)
  | outside (kind text : String)
  deriving Repr

/-- A failure is a complaint about the input or a misuse of the operation. -/
inductive Failure where
  | complaint (c : Complaint)
  | misuse (m : Misuse)
  deriving Repr

/-- A value is asked for a feature that it does not have. -/
def Value.lacks (v : Value) (feature : String) : Misuse :=
  match v with
  | .datum (.kind k) => .kindLacks k feature
  | _ => .noAttribute v.kindName feature

namespace Misuse

inductive Category where
  | wrongKind | wrongValue | outOfRange | unknownKey | noAttribute | brokenContract | unimplemented
  | outside (kind : String)
  deriving DecidableEq, Repr

def category : Misuse → Category
  | emptyStream => .outOfRange
  | unknownOpener _ => .unknownKey
  | notAtomStart _ | notCluster _ | noOrdinal | digitLimit _ | unknownCode _ | brokenTitle =>
    .wrongValue
  | noAttribute .. | kindLacks .. | immutable _ => .noAttribute
  | badMessage | unusedArguments => .brokenContract
  | unimplemented => .unimplemented
  | outside kind _ => .outside kind
  | _ => .wrongKind

def plural (n : Nat) : String := if n = 1 then "" else "s"

def message : Misuse → String
  | emptyStream => "tuple index out of range"
  | unknownOpener text => Text.quoted text
  | notAtomStart text => "parse_atom() cannot start an atom with " ++ Text.quoted text
  | notCluster text => "parse_shorts() expects a short option cluster, got " ++ Text.quoted text
  | noOrdinal => "ordinal() argument must be a positive integer"
  | digitLimit digits =>
    "Exceeds the limit (4300 digits) for integer string conversion: value has " ++
      Nat.repr digits ++ " digits; use sys.set_int_max_str_digits() to increase the limit"
  | notText entry => entry.textSubject ++ " must be a string"
  | notTexts => "words() argument must be an iterable of strings"
  | notVector => "parse_argv() first argument must be a string or an iterable of strings"
  | notOptions entry => entry.label ++ " second argument must be an iterable of options"
  | notIterable kind => "'" ++ kind ++ "' object is not iterable"
  | notPattern kind => "format_pattern() argument must be a pattern, not " ++ kind
  | joinedNothing index =>
    "sequence item " ++ Nat.repr index ++ ": expected str instance, NoneType found"
  | unhashable kind => "unhashable type: '" ++ kind ++ "'"
  | matcherNotCallable => "docopt() 'matcher' must be callable"
  | kindAsMatcher .str => "str() argument 'encoding' must be str, not tuple"
  | kindAsMatcher .int => "'tuple' object cannot be interpreted as an integer"
  | kindAsMatcher kind => kind.name ++ " expected at most 1 argument, got 2"
  | builtinAsMatcher => "len() takes exactly one argument (2 given)"
  | noAttribute kind feature => "'" ++ kind ++ "' object has no attribute '" ++ feature ++ "'"
  | kindLacks kind feature =>
    "type object '" ++ kind.name ++ "' has no attribute '" ++ feature ++ "'"
  | unbound kind feature =>
    "unbound method " ++ kind.name ++ "." ++ feature ++ "() needs an argument"
  | argumentName => "argument name must be a string"
  | commandName => "command name must be a non-empty string"
  | unknownField label field => label ++ " has no field " ++ Text.quoted field
  | onlyChildren label => label ++ " only accepts child patterns"
  | childrenTwice label => label ++ " got children both positionally and by keyword"
  | notChild label kind => label ++ " children must be patterns, not " ++ kind
  | unknownParameter callee parameter =>
    callee ++ " got an unexpected keyword argument '" ++ parameter ++ "'"
  | repeatedParameter callee parameter =>
    callee ++ " got multiple values for argument '" ++ parameter ++ "'"
  | missingParameter callee parameter =>
    callee ++ " missing 1 required positional argument: '" ++ parameter ++ "'"
  | tooManyArguments callee least most given =>
    let range := if least = most then Nat.repr most
      else "from " ++ Nat.repr least ++ " to " ++ Nat.repr most
    callee ++ " takes " ++ range ++ " positional argument" ++ plural most ++ " but " ++
      Nat.repr given ++ " were given"
  | immutable label => label ++ " patterns are immutable"
  | sealed title => "type '" ++ title ++ "' is not an acceptable base type"
  | brokenTitle => "type name must not contain null characters"
  | unimplemented => ""
  | notCode => "getdoc() argument must be a fault-code"
  | unknownCode number => Int.repr number ++ " is not a valid FaultCode"
  | notSurfaceable => "trigger() argument must have a __trigger__ and __replace__ methods"
  | badMessage => ""
  | unusedArguments => "unused arguments are not allowed"
  | renameTarget => "rename() first argument must be callable"
  | renameName => "rename() second argument must be a string"
  | renameFixed => "rename() first argument must be a updatable callable"
  | renamerName => "@rename() argument must be a string"
  | renamerTarget => "@rename() must be applied to a callable"
  | renameCount given => "rename takes 1 to 2 arguments but " ++ Nat.repr given ++ " were given"
  | noUnion left right =>
    "unsupported operand type(s) for |: '" ++ left ++ "' and '" ++ right ++ "'"
  | outside _ text => text

end Misuse

end Synopsis
