import MetricAlarm.Text.LetterCase
import MetricAlarm.UnknownName

/-!
# States and severities

Both are written in capitals and read in any case. Main statements: `AlarmState.ofName?_name` and
`Severity.ofName?_name`.
-/

namespace MetricAlarm

/-- The state of an alarm or of one of its conditions. -/
inductive AlarmState
  /-- There is not enough data to decide. -/
  | undetermined
  | ok
  | alarm
  deriving DecidableEq, Repr

namespace AlarmState

def name : AlarmState → String
  | .undetermined => "UNDETERMINED"
  | .ok => "OK"
  | .alarm => "ALARM"

def all : List AlarmState := [.undetermined, .ok, .alarm]

def ofName? (s : String) : Option AlarmState := all.find? fun x => x.name == Text.upper s

theorem ofName?_name (x : AlarmState) : ofName? x.name = some x := by
  cases x <;> decide +kernel

def parse (s : String) : Except UnknownName AlarmState :=
  match ofName? s with
  | some x => .ok x
  | none => .error ⟨.state, s⟩

end AlarmState

inductive Severity
  | low
  | medium
  | high
  | critical
  deriving DecidableEq, Repr

namespace Severity

def name : Severity → String
  | .low => "LOW"
  | .medium => "MEDIUM"
  | .high => "HIGH"
  | .critical => "CRITICAL"

def all : List Severity := [.low, .medium, .high, .critical]

def ofName? (s : String) : Option Severity := all.find? fun x => x.name == Text.upper s

theorem ofName?_name (x : Severity) : ofName? x.name = some x := by
  cases x <;> decide +kernel

def parse (s : String) : Except UnknownName Severity :=
  match ofName? s with
  | some x => .ok x
  | none => .error ⟨.severity, s⟩

end Severity

end MetricAlarm
