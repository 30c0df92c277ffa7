import Scorecard.Expression.Token
import Scorecard.Formula.Basic

/-!
What can be wrong with an expression, and where. A fault is kept as its cause; the code by which
programs tell faults apart and the message that people read are functions of the cause.
-/
namespace Scorecard.Expression

/-- What a number in an argument is for. -/
inductive NumberSlot where
  | weight (metric : String)
  | threshold
deriving DecidableEq

def NumberSlot.describe : NumberSlot → String
  | .weight metric => s!"weight for '{metric}'"
  | .threshold => "threshold"

/-- Why a text is not a keyword with arguments in parentheses. -/
inductive Mismatch where
  | noInput
  | unknownFunction (word : String)
  | noFunction (found : Symbol)
  | noParenthesis (kind : Formula.Kind) (found : Option Symbol)
  | nested
  | strayCharacter (c : Char)
  | unclosed
  | trailing (found : Symbol)
deriving DecidableEq

def Mismatch.describe : Mismatch → String
  | .noInput => "empty input"
  | .unknownFunction word => s!"unknown function '{word}'"
  | .noFunction found =>
    let found := found.describe
    s!"expected a function name, found {found}"
  | .noParenthesis kind none =>
    let keyword := kind.keyword
    s!"expected '(' after {keyword}"
  | .noParenthesis kind (some found) =>
    let keyword := kind.keyword
    let found := found.describe
    s!"expected '(' after {keyword}, found {found}"
  | .nested => "nested expressions are not supported"
  | .strayCharacter c => (Symbol.stray c).describe
  | .unclosed => "missing closing ')'"
  | .trailing found =>
    let found := found.describe
    s!"unexpected {found} after closing ')'"

/-- What is wrong with the arguments of a call, apart from the spelling of numbers. -/
inductive ArgumentError where
  | noMetrics (kind : Formula.Kind)
  | noWeights
  | wrongCount (count : Nat)
  | empty
  | missingComma (next : Symbol)
  | misplacedWeight (metric : String)
  | noIdentifier (found : Symbol)
  | missingColon (metric : String) (found : Symbol)
  | noPair (found : Symbol)
  | repeatedWeight (metric : String)
  | missingNumber (slot : NumberSlot)
  | noNumber (slot : NumberSlot) (found : Symbol)
deriving DecidableEq

def ArgumentError.message : ArgumentError → String
  | .noMetrics kind =>
    let keyword := kind.keyword
    s!"{keyword} requires at least one metric"
  | .noWeights => "WEIGHTED_SUM requires at least one 'METRIC: weight' pair"
  | .wrongCount count =>
    let count := toString count
    s!"THRESHOLD takes exactly two arguments (metric, value), found {count}"
  | .empty => "empty argument"
  | .missingComma next =>
    let next := next.describe
    s!"missing ',' before {next}"
  | .misplacedWeight metric => s!"weight on '{metric}' is only allowed in WEIGHTED_SUM"
  | .noIdentifier found =>
    let found := found.describe
    s!"expected a metric identifier, found {found}"
  | .missingColon metric found =>
    let found := found.describe
    s!"expected ':' after '{metric}', found {found}"
  | .noPair found =>
    let found := found.describe
    s!"expected 'METRIC: weight', found {found}"
  | .repeatedWeight metric => s!"metric '{metric}' is weighted more than once"
  | .missingNumber slot =>
    let slot := slot.describe
    s!"missing {slot}"
  | .noNumber slot found =>
    let slot := slot.describe
    let found := found.describe
    s!"expected {slot}, found {found}"

inductive Problem where
  | emptyExpression
  | unrecognized (mismatch : Mismatch)
  | malformedNumber (slot : NumberSlot) (text : String)
  | invalidArgument (error : ArgumentError)
  | unknownMetric (name : String) (known : List String)
  | unavailable (missing available : List String)
deriving DecidableEq

/-- The classes of faults. -/
inductive Code where
  | emptyExpression
  | unrecognizedPattern
  | malformedNumber
  | invalidArgument
  | unknownMetric
  | metricNotAvailable
deriving DecidableEq

def Code.word : Code → String
  | .emptyExpression => "EMPTY_EXPRESSION"
  | .unrecognizedPattern => "UNRECOGNIZED_PATTERN"
  | .malformedNumber => "MALFORMED_NUMBER"
  | .invalidArgument => "INVALID_ARGUMENT"
  | .unknownMetric => "UNKNOWN_METRIC"
  | .metricNotAvailable => "METRIC_NOT_AVAILABLE"

namespace Problem

def code : Problem → Code
  | .emptyExpression => .emptyExpression
  | .unrecognized _ => .unrecognizedPattern
  | .malformedNumber .. => .malformedNumber
  | .invalidArgument _ => .invalidArgument
  | .unknownMetric .. => .unknownMetric
  | .unavailable .. => .metricNotAvailable

/-- Names for a message, or that there are none. -/
def listed (names : List String) : String :=
  if names.isEmpty then "(none)" else ", ".intercalate names

def message : Problem → String
  | .emptyExpression => "DSL expression cannot be empty"
  | .unrecognized mismatch =>
    let mismatch := mismatch.describe
    let keywords := ", ".intercalate (Formula.Kind.all.map (·.keyword))
    s!"Unrecognized formula pattern: {mismatch}. Supported: {keywords}"
  | .malformedNumber slot text =>
    let slot := slot.describe
    s!"{slot} '{text}' is not a valid decimal number"
  | .invalidArgument error => error.message
  | .unknownMetric name known =>
    let known := ", ".intercalate known
    s!"Unknown metric '{name}'. Known metrics: {known}"
  | .unavailable missing available =>
    let missing := ", ".intercalate missing
    let available := listed available
    s!"Metrics referenced but not available: {missing}. Available metrics: {available}"

end Problem

structure Fault where
  problem : Problem
  position : Position
deriving DecidableEq

end Scorecard.Expression
