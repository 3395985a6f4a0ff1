import MetricAlarm.Condition.Basic
import MetricAlarm.Formula.Connective

/-!
# Errors of expressions

What can be wrong with an expression, each cause with the wording of its message.
-/

namespace MetricAlarm

/-- What a reader expected, or found too much of, at a token. -/
inductive SyntaxFault
  | emptyExpression
  | loneAmpersand
  | loneBar
  | unterminatedQuote
  | trailingToken
  | closingParenthesis
  | threshold
  | thresholdRange
  | comparator
  | metricName
  | dimensionName
  | dimensionEquals
  | dimensionValue
  | dimensionEnd
  | functionEnd
  | argument
  | period
  | repeatedPeriod
  | repeatedDeterministic
  | periods
  deriving DecidableEq, Repr

def SyntaxFault.message : SyntaxFault → String
  | .emptyExpression => "empty expression"
  | .loneAmpersand => "expected '&&'"
  | .loneBar => "expected '||'"
  | .unterminatedQuote => "unterminated quoted string"
  | .trailingToken => "expected 'and', 'or' or end of expression"
  | .closingParenthesis => "expected ')'"
  | .threshold => "expected numeric threshold"
  | .thresholdRange => "threshold out of range"
  | .comparator => "expected comparison operator"
  | .metricName => "expected metric name"
  | .dimensionName => "expected dimension name"
  | .dimensionEquals => "expected '=' after dimension name"
  | .dimensionValue => "expected dimension value"
  | .dimensionEnd => "expected ',' or '\x7d'"
  | .functionEnd => "expected ')' after function arguments"
  | .argument => "expected period or 'deterministic'"
  | .period => "expected period"
  | .repeatedPeriod => "period given more than once"
  | .repeatedDeterministic => "'deterministic' given more than once"
  | .periods => "expected number of periods after 'times'"

/-- Why a list of steps is no program. -/
inductive ProgramFault
  | missingOperand (connective : Connective)
  | valuesLeft (count : Nat)
  deriving DecidableEq, Repr

def ProgramFault.message : ProgramFault → String
  | .missingOperand c => c.name ++ " needs two operands"
  | .valuesLeft n => "program leaves " ++ toString n ++ " values instead of one"

inductive ExpressionError
  /-- A fault at a token, with the token's offset in characters and its text. -/
  | malformedText (position : Nat) (token : String) (fault : SyntaxFault)
  | duplicateDimension (name : String)
  /-- A single condition was asked for and the text holds several. -/
  | compound (text : String)
  | missingValue (condition : Condition)
  | malformedProgram (fault : ProgramFault)
  deriving DecidableEq

def ExpressionError.message : ExpressionError → String
  | .malformedText position token fault =>
    "Syntax error at position " ++ toString position ++ " near '" ++ token ++ "': " ++ fault.message
  | .duplicateDimension name => "More than one value was given for dimension " ++ name
  | .compound text => "Expected a simple expression but got: " ++ text
  | .missingValue condition => "Expected sub-expression was not found for " ++ condition.text
  | .malformedProgram fault => "Malformed expression program: " ++ fault.message

end MetricAlarm
