import MetricAlarm.Alarm.State
import MetricAlarm.Condition.Basic
import MetricAlarm.Settings.Basic
import MetricAlarm.Window.Slide

/-!
# Sub-alarms

A sub-alarm watches one condition. Its window has a view of one slot per period, so that the view is
what the condition speaks about. When the view has rested for the delay it is judged once, and the
window moves on; until then the last verdict stands. Main statement: `evaluate_of_not_due`.
-/

namespace MetricAlarm

structure SubAlarm where
  condition : Condition
  window : Window
  minDelay : Int
  state : AlarmState
  deriving DecidableEq

namespace SubAlarm

/-- The window that a condition needs. -/
def shape (c : Condition) (s : Settings) (viewEnd : Int) : WindowShape where
  kind := c.function.statistic
  resolution := s.resolution
  slotWidth := (c.period.toNat : Int) * s.resolution.perSecond
  viewSlots := c.periods.toNat
  futureSlots := s.futureSlots
  viewEnd := viewEnd

def create (c : Condition) (s : Settings) (viewEnd : Int) : Except ShapeFault SubAlarm :=
  (Window.create (shape c s viewEnd)).map fun w => ⟨c, w, s.minDelay, .undetermined⟩

/-- Take in a sample, if the window covers its timestamp. -/
def insert? (a : SubAlarm) (value : Float) (timestamp : Int) : Option SubAlarm :=
  (a.window.insert? value timestamp false).map fun w => { a with window := w }

/-- The verdict on the values of a view. A value that does not breach clears the alarm; otherwise
the alarm is raised when every slot breaches. Without any value the verdict is open, unless the
condition is deterministic. -/
def verdict (c : Condition) (values : List Float) : AlarmState :=
  if values.any fun x => !x.isNaN && !c.breachedBy x then .ok
  else if values.any (!·.isNaN) && !values.any (·.isNaN) then .alarm
  else if !values.any (!·.isNaN) && c.deterministic then .ok
  else .undetermined

def isDue (a : SubAlarm) (now : Int) : Bool := a.window.isDue now a.minDelay

/-- Judge the view and slide past it, if the view has rested long enough. -/
def evaluate (a : SubAlarm) (now : Int) : SubAlarm :=
  if a.isDue now then
    { a with
      state := verdict a.condition a.window.viewValues
      window := a.window.slideTo now a.minDelay }
  else a

/-- The move of the window when the sub-alarm is evaluated. -/
def moveTo? (a : SubAlarm) (now : Int) : Option Window.Move := a.window.moveTo? now a.minDelay

theorem evaluate_of_not_due {a : SubAlarm} {now : Int} (h : a.isDue now = false) :
    a.evaluate now = a := by
  simp [evaluate, h]

end SubAlarm

end MetricAlarm
