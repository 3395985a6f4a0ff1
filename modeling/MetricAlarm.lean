import MetricAlarm.Alarm.Monitor
import MetricAlarm.Log.Setup
import MetricAlarm.Settings.Load
import MetricAlarm.Window.Text
import MetricAlarm.Proofs.Accumulator.Reset
import MetricAlarm.Proofs.Alarm.Arrival
import MetricAlarm.Proofs.Alarm.Completion
import MetricAlarm.Proofs.Alarm.Independence
import MetricAlarm.Proofs.Alarm.Initialized
import MetricAlarm.Proofs.Alarm.Journal
import MetricAlarm.Proofs.Alarm.Polling
import MetricAlarm.Proofs.Alarm.Reception
import MetricAlarm.Proofs.Alarm.Repetition
import MetricAlarm.Proofs.Alarm.Routing
import MetricAlarm.Proofs.Condition.Mirror
import MetricAlarm.Proofs.Expression.Blame
import MetricAlarm.Proofs.Expression.Layout
import MetricAlarm.Proofs.Expression.Names
import MetricAlarm.Proofs.Formula.Evaluation
import MetricAlarm.Proofs.Formula.NormalForm
import MetricAlarm.Proofs.Window.Destination
import MetricAlarm.Proofs.Window.Exact
import MetricAlarm.Proofs.Window.Rounding
import MetricAlarm.Proofs.Window.Text
