/-!
# Connectives

`and` and `or` join two verdicts.
-/

namespace MetricAlarm

inductive Connective
  | and
  | or
  deriving DecidableEq, Repr

namespace Connective

def name : Connective → String
  | .and => "AND"
  | .or => "OR"

def apply : Connective → Bool → Bool → Bool
  | .and, a, b => a && b
  | .or, a, b => a || b

end Connective

end MetricAlarm
