import MetricAlarm.Log.Filter
import MetricAlarm.Log.Line
import MetricAlarm.Settings.Basic

/-!
# Setting up the log

The log is set up once: the first filter that can be read stays. A filter from the environment
comes before the one asked for, unless it is blank. Main statement: `install_installed`.
-/

namespace MetricAlarm.Log

/-- The filter in force, if the log was set up. -/
abbrev Setup := Option Filter

/-- The text that the filter is read from. -/
def filterText (environment : Option String) (level : String) : String :=
  match environment with
  | some text => if Text.allBlank text then level else text
  | none => level

/-- Set up the log. -/
def Setup.install (s : Setup) (environment : Option String) (level : String) :
    Except SettingsError Unit × Setup :=
  let text := filterText environment level
  match Filter.parse? text, s with
  | none, _ => (.error (.invalidLogLevel text), s)
  | some _, some _ => (.error .alreadyLogging, s)
  | some f, none => (.ok (), some f)

/-- Set up the log several times over, with the outcome of each attempt. -/
def Setup.installAll (s : Setup) (environment : Option String) :
    List String → List (Except SettingsError Unit) × Setup
  | [] => ([], s)
  | level :: levels =>
    let (outcome, s) := s.install environment level
    let (outcomes, s) := Setup.installAll s environment levels
    (outcome :: outcomes, s)

/-- The lines of the records that the log shows. -/
def Setup.lines (s : Setup) (style : Style) (rs : List Record) : List String :=
  match s with
  | none => []
  | some f => (rs.filter f.enables).flatMap (·.lines style)

/-- A log that was set up stays as it is. -/
theorem Setup.install_installed (f : Filter) (environment : Option String) (level : String) :
    (Setup.install (some f) environment level).2 = some f := by
  unfold Setup.install
  dsimp only
  cases Filter.parse? (filterText environment level) <;> rfl

end MetricAlarm.Log
