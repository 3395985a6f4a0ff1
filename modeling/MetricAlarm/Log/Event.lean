import MetricAlarm.Alarm.State
import MetricAlarm.Text.Quoted
import MetricAlarm.Window.Slide

/-!
# Events

What is worth a line in the log: a text was compiled, a window moved, an alarm changed its state.
As a record every event has a level, a target, a message and named fields with their texts.
-/

namespace MetricAlarm.Log

inductive Level
  | trace
  | debug
  | info
  | warn
  | error
  deriving DecidableEq, Repr

namespace Level

def name : Level → String
  | .trace => "TRACE"
  | .debug => "DEBUG"
  | .info => "INFO"
  | .warn => "WARN"
  | .error => "ERROR"

def all : List Level := [.trace, .debug, .info, .warn, .error]

/-- How much is shown at a level: the more, the lower the level. -/
def verbosity : Level → Nat
  | .error => 1
  | .warn => 2
  | .info => 3
  | .debug => 4
  | .trace => 5

end Level

/-- A named value of a record, as it is written. -/
structure Field where
  name : String
  text : String
  deriving DecidableEq, Repr

structure Record where
  level : Level
  /-- The part of the program that speaks, with `::` between its names. -/
  target : String
  message : String
  fields : List Field
  deriving DecidableEq, Repr

inductive Event
  | compiled (text : String) (steps : Nat)
  | slid (move : Window.Move)
  | stateChanged (expression : String) (severity : Severity) (before after : AlarmState)
  deriving DecidableEq, Repr

def Event.record : Event → Record
  | .compiled text steps =>
    ⟨.debug, "thresh_expr::compiler", "Compiled alarm expression",
      [⟨"expression", Text.quoted text⟩, ⟨"elements", toString steps⟩]⟩
  | .slid m =>
    ⟨.trace, "thresh_stats::window", "Slid window view",
      [⟨"view_end", toString m.viewEnd⟩, ⟨"window_end", toString m.windowEnd⟩,
        ⟨"slots", toString m.slots⟩]⟩
  | .stateChanged expression severity before after =>
    ⟨.info, "thresh_engine::alarm", "Alarm state changed",
      [⟨"expression", expression⟩, ⟨"severity", severity.name⟩, ⟨"from", before.name⟩,
        ⟨"to", after.name⟩]⟩

end MetricAlarm.Log
