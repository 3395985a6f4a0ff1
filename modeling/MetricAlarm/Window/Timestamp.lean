/-!
# Timestamps

Timestamps, widths and delays are whole numbers of sixty-four bits with sign. Sums that may leave
that range are either clamped to it or checked. Before a timestamp is looked up it is rounded down
to the resolution. Main statement: `adjust_le`.
-/

namespace MetricAlarm

namespace Timestamp

def least : Int := -9223372036854775808
def greatest : Int := 9223372036854775807

def InRange (t : Int) : Prop := least ≤ t ∧ t ≤ greatest

instance (t : Int) : Decidable (InRange t) := inferInstanceAs (Decidable (_ ∧ _))

/-- The timestamp nearest to `t`. -/
def clamp (t : Int) : Int := max least (min t greatest)

/-- The number itself if it is a timestamp. -/
def checked (t : Int) : Option Int := if InRange t then some t else none

end Timestamp

/-- The granularity of timestamps. Absolute timestamps are used as given, in seconds; the others are
milliseconds that are rounded down to the second or the minute. -/
inductive Resolution
  | absolute
  | seconds
  | minutes
  deriving DecidableEq, Repr

namespace Resolution

def name : Resolution → String
  | .absolute => "absolute"
  | .seconds => "seconds"
  | .minutes => "minutes"

/-- The unit to whose multiples timestamps are rounded down. -/
def unit : Resolution → Int
  | .absolute => 1
  | .seconds => 1000
  | .minutes => 60000

/-- Timestamps per second. -/
def perSecond : Resolution → Int
  | .absolute => 1
  | .seconds => 1000
  | .minutes => 1000

/-- Round down to a multiple of the unit. The earliest timestamps, which lie before the first
multiple, become the earliest of all. -/
def adjust (r : Resolution) (t : Int) : Int :=
  match r with
  | .absolute => t
  | r => Timestamp.clamp (t - t % r.unit)

theorem adjust_le (r : Resolution) {t : Int} (h : Timestamp.InRange t) : r.adjust t ≤ t := by
  have hl := h.1
  cases r with
  | absolute => exact Int.le_refl _
  | seconds =>
    simp only [adjust, unit, Timestamp.clamp]
    have := Int.emod_nonneg t (show (1000 : Int) ≠ 0 by decide)
    omega
  | minutes =>
    simp only [adjust, unit, Timestamp.clamp]
    have := Int.emod_nonneg t (show (60000 : Int) ≠ 0 by decide)
    omega

end Resolution

end MetricAlarm
