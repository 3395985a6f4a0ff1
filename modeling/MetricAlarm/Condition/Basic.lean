import MetricAlarm.Condition.Aggregate
import MetricAlarm.Condition.Comparator
import MetricAlarm.Decimal.Positional
import MetricAlarm.Metric.Basic

/-!
# Conditions

A condition compares an aggregate of a metric over a period with a threshold, for a number of
consecutive periods: `avg(cpu, 120) > 90.0 times 3`. Two conditions are equal when all their parts
are; thresholds are told apart by their bits, so that `0.0` and `-0.0` differ.
-/

namespace MetricAlarm

structure Condition where
  function : Aggregate
  metric : Metric
  comparator : Comparator
  threshold : Float
  /-- Seconds that are aggregated into one value. -/
  period : UInt32
  /-- Consecutive periods that must breach. -/
  periods : UInt32
  /-- Whether silence counts as a value that does not breach. -/
  deterministic : Bool
  deriving DecidableEq

namespace Condition

def defaultPeriod : UInt32 := 60
def defaultPeriods : UInt32 := 1

/-- The function of a bare metric: its extreme value in the direction of the comparator. -/
def defaultFunction : Comparator → Aggregate
  | .gt | .gte => .max
  | .lt | .lte => .min

/-- Whether a value breaches the threshold. -/
def breachedBy (c : Condition) (value : Float) : Bool := c.comparator.holds value c.threshold

/-- The arguments of the function; the default period and the absence of `deterministic` are not
written. -/
def arguments (c : Condition) : List String :=
  [c.metric.text] ++
  (if c.period = defaultPeriod then [] else [toString c.period.toNat]) ++
  (if c.deterministic then ["deterministic"] else [])

/-- The text from which the condition is read back. -/
def text (c : Condition) : String :=
  c.function.name ++ "(" ++ ", ".intercalate c.arguments ++ ") " ++ c.comparator.symbol ++ " " ++
    Decimal.textWithFraction c.threshold ++
    (if c.periods = defaultPeriods then "" else " times " ++ toString c.periods.toNat)

end Condition

end MetricAlarm
