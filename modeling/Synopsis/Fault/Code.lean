/-! The numbers under which faults are reported. -/
namespace Synopsis.Fault

/-- What a fault is about: the help text, an option, the grammar, or the match. -/
inductive Code where
  | usageNotFound | duplicatedUsage | emptyUsage
  | malformedOption | unparsableOption | unexpectedArgument | missingArgument | ambiguousOption
  | missingEnclosure | unconsumedTokens
  | unmatchedPattern
  deriving DecidableEq, Repr

namespace Code

/-- The codes in the order of their numbers. -/
def all : List Code :=
  [usageNotFound, duplicatedUsage, emptyUsage, malformedOption, unparsableOption,
    unexpectedArgument, missingArgument, ambiguousOption, missingEnclosure, unconsumedTokens,
    unmatchedPattern]

def number : Code → Nat
  | usageNotFound => 21101
  | duplicatedUsage => 21102
  | emptyUsage => 21103
  | malformedOption => 21111
  | unparsableOption => 21112
  | unexpectedArgument => 21113
  | missingArgument => 21114
  | ambiguousOption => 21115
  | missingEnclosure => 21121
  | unconsumedTokens => 21122
  | unmatchedPattern => 21131

def label : Code → String
  | usageNotFound => "USAGE_NOT_FOUND"
  | duplicatedUsage => "DUPLICATED_USAGE"
  | emptyUsage => "EMPTY_USAGE"
  | malformedOption => "MALFORMED_OPTION"
  | unparsableOption => "UNPARSABLE_OPTION"
  | unexpectedArgument => "UNEXPECTED_ARGUMENT"
  | missingArgument => "MISSING_ARGUMENT"
  | ambiguousOption => "AMBIGUOUS_OPTION"
  | missingEnclosure => "MISSING_ENCLOSURE"
  | unconsumedTokens => "UNCONSUMED_TOKENS"
  | unmatchedPattern => "UNMATCHED_PATTERN"

def ofNumber? (n : Nat) : Option Code := all.find? (·.number == n)

end Code

end Synopsis.Fault
