import MetricAlarm.Text.Blank
import MetricAlarm.Window.Timestamp

/-!
# Settings

What can be set for all alarms: how many slots lie in the future, how long a view rests before it is
judged, the resolution of timestamps, and the log filter. Main statement: `check_eq_ok_iff`.
-/

namespace MetricAlarm

structure Settings where
  /-- Slots past the end of the view, for samples that arrive early. -/
  futureSlots : Nat
  /-- Seconds between the end of a view and its judgement. -/
  minDelaySeconds : Int
  resolution : Resolution
  /-- The log filter that applies unless the environment has one. -/
  logLevel : String
  deriving DecidableEq, Repr

inductive SettingsError
  | negativeDelay (seconds : Int)
  | emptyLogLevel
  | noExtension
  | fileNotFound (path : String)
  | unsupportedFormat (extension : String)
  /-- The file, or a value in it, cannot be read; the environment was left out. -/
  | unreadableFile
  /-- The file, the environment, or a value in them cannot be read. -/
  | unreadable
  | invalidLogLevel (level : String)
  | alreadyLogging
  deriving DecidableEq, Repr

def SettingsError.message : SettingsError → String
  | .negativeDelay s => "min_delay_secs must not be negative, got " ++ toString s
  | .emptyLogLevel => "log_level must not be empty"
  | .noExtension => "Config file must have an extension"
  | .fileNotFound path => "Config file not found: " ++ path
  | .unsupportedFormat e => "Unsupported config file format: " ++ e
  | .unreadableFile => "Failed to load configuration from file"
  | .unreadable => "Failed to load configuration"
  | .invalidLogLevel level => "Invalid log level '" ++ level ++ "'"
  | .alreadyLogging => "Failed to initialize logging"

namespace Settings

def default : Settings where
  futureSlots := 2
  minDelaySeconds := 10
  resolution := .absolute
  logLevel := "info"

/-- The delay in the unit of timestamps. -/
def minDelay (s : Settings) : Int := Timestamp.clamp (s.minDelaySeconds * s.resolution.perSecond)

def check (s : Settings) : Except SettingsError Unit :=
  if s.minDelaySeconds < 0 then .error (.negativeDelay s.minDelaySeconds)
  else if Text.allBlank s.logLevel then .error .emptyLogLevel
  else .ok ()

theorem check_eq_ok_iff (s : Settings) :
    s.check = .ok () ↔ 0 ≤ s.minDelaySeconds ∧ Text.allBlank s.logLevel = false := by
  unfold check
  split
  · simp; omega
  · split <;> simp_all

end Settings

end MetricAlarm
