import MetricAlarm.Alarm.SubAlarm
import MetricAlarm.Expression
import MetricAlarm.Log.Event

/-!
# Monitors

A monitor watches an expression: one sub-alarm for each of its conditions, in their order. Samples
go to every sub-alarm whose metric selects them. An evaluation judges the sub-alarms and combines
their states by the expression; a change of the state is an event, and so is the compilation of the
expression.
-/

namespace MetricAlarm

/-- What compiling a text logs. A text that does not compile leaves no trace. -/
def Expression.events (text : String) : List Log.Event :=
  match compile text with
  | .error _ => []
  | .ok e => [.compiled e.text e.program.length]

structure Monitor where
  expression : Expression
  severity : Severity
  subAlarms : List SubAlarm
  state : AlarmState

namespace Monitor

/-- One sub-alarm per condition; the first that cannot be made decides. -/
def create (e : Expression) (severity : Severity) (s : Settings) (viewEnd : Int) :
    Except ShapeFault Monitor :=
  (e.conditions.mapM fun c => SubAlarm.create c s viewEnd).map fun subAlarms =>
    ⟨e, severity, subAlarms, .undetermined⟩

/-- What a sub-alarm makes of a sample, if it takes it. -/
def offer (metric : Metric) (value : Float) (timestamp : Int) (a : SubAlarm) : Option SubAlarm :=
  if a.condition.metric.selects metric then a.insert? value timestamp else none

/-- Route a sample to the sub-alarms that it concerns. -/
def addSample (m : Monitor) (metric : Metric) (value : Float) (timestamp : Int) : Monitor :=
  { m with subAlarms := m.subAlarms.map fun a => (offer metric value timestamp a).getD a }

/-- The number of sub-alarms that take a sample. -/
def takers (m : Monitor) (metric : Metric) (value : Float) (timestamp : Int) : Nat :=
  m.subAlarms.countP fun a => (offer metric value timestamp a).isSome

/-- The alarms among the sub-alarms, by condition. -/
def alarms (subAlarms : List SubAlarm) : List (Condition × Bool) :=
  subAlarms.map fun a => (a.condition, a.state == .alarm)

/-- The state of the whole: alarm when the expression holds with "in alarm" for each condition,
otherwise undetermined as long as a sub-alarm is. -/
def combine (e : Expression) (subAlarms : List SubAlarm) : Except ExpressionError AlarmState :=
  (e.evaluate (valueOf (alarms subAlarms))).map fun holds =>
    if holds then .alarm
    else if subAlarms.any (·.state == .undetermined) then .undetermined
    else .ok

structure Evaluation where
  monitor : Monitor
  outcome : Except ExpressionError AlarmState
  events : List Log.Event

/-- Judge every sub-alarm at `now` and combine their states. -/
def evaluate (m : Monitor) (now : Int) : Evaluation :=
  let subAlarms := m.subAlarms.map (·.evaluate now)
  let moves := (m.subAlarms.filterMap (·.moveTo? now)).map Log.Event.slid
  match combine m.expression subAlarms with
  | .error e => ⟨{ m with subAlarms := subAlarms }, .error e, moves⟩
  | .ok state =>
    let change :=
      if state = m.state then []
      else [.stateChanged m.expression.text m.severity m.state state]
    ⟨{ m with subAlarms := subAlarms, state := state }, .ok state, moves ++ change⟩

end Monitor

end MetricAlarm
