/-!
# Accumulators

An accumulator reduces the samples of one time slot to a single value. Before the first sample its
value is not-a-number. The counts of `average` and `count` have no bound here; a counter of
sixty-four bits agrees with them as long as there are less than 2 ^ 64 samples. Main statements:
`isInitialized_add`, `isInitialized_reset` and `kind_add`, `kind_reset`: adding and resetting never
change what is computed.
-/

namespace MetricAlarm

/-- What an accumulator computes. -/
inductive Statistic
  | sum
  | average
  | min
  | max
  | count
  | last
  deriving DecidableEq, Repr

def Statistic.name : Statistic → String
  | .sum => "sum"
  | .average => "average"
  | .min => "min"
  | .max => "max"
  | .count => "count"
  | .last => "last"

/-- The state of each statistic; `none` and zero stand for "no sample yet". -/
inductive Accumulator
  | sum (total : Option Float)
  | average (totalAndCount : Option (Float × Nat))
  | min (least : Option Float)
  | max (greatest : Option Float)
  | count (seen : Nat)
  /-- The held value and the newest timestamp so far. -/
  | last (newest : Option (Float × Int))
  deriving DecidableEq, Repr

def Statistic.fresh : Statistic → Accumulator
  | .sum => .sum none
  | .average => .average none
  | .min => .min none
  | .max => .max none
  | .count => .count 0
  | .last => .last none

/-- The value of a slot without samples. -/
def noValue : Float := 0 / 0

namespace Accumulator

def kind : Accumulator → Statistic
  | .sum _ => .sum
  | .average _ => .average
  | .min _ => .min
  | .max _ => .max
  | .count _ => .count
  | .last _ => .last

/-- Take in a sample. Totals start from zero; a smallest or greatest value gives way to strictly
smaller or greater ones; the last value gives way to a strictly newer timestamp. -/
def add (a : Accumulator) (value : Float) (timestamp : Int) : Accumulator :=
  match a with
  | .sum total => .sum (some (total.getD 0 + value))
  | .average none => .average (some (0 + value, 1))
  | .average (some (total, n)) => .average (some (total + value, n + 1))
  | .min none => .min (some value)
  | .min (some least) => .min (some (if value < least then value else least))
  | .max none => .max (some value)
  | .max (some greatest) => .max (some (if value > greatest then value else greatest))
  | .count n => .count (n + 1)
  | .last none => .last (some (value, timestamp))
  | .last (some (held, newest)) =>
    .last (some (if timestamp > newest then (value, timestamp) else (held, newest)))

def value : Accumulator → Float
  | .sum total => total.getD noValue
  | .average none => noValue
  | .average (some (total, n)) => total / Float.ofNat n
  | .min least => least.getD noValue
  | .max greatest => greatest.getD noValue
  | .count 0 => noValue
  | .count (n + 1) => Float.ofNat (n + 1)
  | .last none => noValue
  | .last (some (held, _)) => held

/-- Whether a sample was added since the last reset. -/
def isInitialized : Accumulator → Bool
  | .sum total => total.isSome
  | .average totalAndCount => totalAndCount.isSome
  | .min least => least.isSome
  | .max greatest => greatest.isSome
  | .count n => n != 0
  | .last newest => newest.isSome

/-- Forget every sample. -/
def reset (a : Accumulator) : Accumulator := a.kind.fresh

@[simp] theorem kind_fresh (s : Statistic) : s.fresh.kind = s := by cases s <;> rfl

@[simp] theorem kind_add (a : Accumulator) (v : Float) (t : Int) : (a.add v t).kind = a.kind := by
  cases a with
  | sum | count => rfl
  | average s => cases s <;> rfl
  | min s => cases s <;> rfl
  | max s => cases s <;> rfl
  | last s => cases s <;> rfl

@[simp] theorem kind_reset (a : Accumulator) : a.reset.kind = a.kind := kind_fresh _

@[simp] theorem isInitialized_add (a : Accumulator) (v : Float) (t : Int) :
    (a.add v t).isInitialized = true := by
  cases a with
  | sum | count => rfl
  | average s => cases s <;> rfl
  | min s => cases s <;> rfl
  | max s => cases s <;> rfl
  | last s => cases s <;> rfl

@[simp] theorem isInitialized_reset (a : Accumulator) : a.reset.isInitialized = false := by
  cases a <;> rfl

end Accumulator

end MetricAlarm
