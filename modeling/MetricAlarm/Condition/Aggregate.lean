import MetricAlarm.Accumulator
import MetricAlarm.Text.LetterCase
import MetricAlarm.UnknownName

/-!
# Aggregate functions

The function of a condition reduces the samples of one period. Its name ignores the case of ASCII
letters. Main statement: `ofName?_name`, every function is read back from its name.
-/

namespace MetricAlarm

inductive Aggregate
  | min
  | max
  | sum
  | count
  | avg
  | last
  deriving DecidableEq, Repr

namespace Aggregate

def name : Aggregate → String
  | .min => "min"
  | .max => "max"
  | .sum => "sum"
  | .count => "count"
  | .avg => "avg"
  | .last => "last"

def all : List Aggregate := [.min, .max, .sum, .count, .avg, .last]

def ofName? (s : String) : Option Aggregate := all.find? fun a => Text.sameIgnoringCase a.name s

theorem ofName?_name (a : Aggregate) : ofName? a.name = some a := by
  cases a <;> decide +kernel

def parse (s : String) : Except UnknownName Aggregate :=
  match ofName? s with
  | some a => .ok a
  | none => .error ⟨.function, s⟩

/-- The accumulator kind that computes the function. -/
def statistic : Aggregate → Statistic
  | .min => .min
  | .max => .max
  | .sum => .sum
  | .count => .count
  | .avg => .average
  | .last => .last

end Aggregate

end MetricAlarm
