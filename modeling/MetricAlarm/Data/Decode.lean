import MetricAlarm.Alarm.State
import MetricAlarm.Data.Value
import MetricAlarm.Expression
import MetricAlarm.Settings.Basic

/-!
# Domain values as data

How the values of the domain are written as data and read back. Names stand in capitals and are also
read in small letters; the names of statistics and resolutions have small letters only. Structures
are tables by field name and are also read from lists of their fields in order. Conditions and
expressions are data as their texts. Main statement: `decode_encode_settings`.
-/

namespace MetricAlarm.Data

/-- What is wrong with data: its form, or the text in it. -/
inductive DecodeError
  | form
  | text (e : ExpressionError)

/-! ## Names -/

/-- A name, or a table whose only entry has the name and no value. -/
def named {α : Type} (names : List (String × α)) : Value → Option α
  | .text s => names.lookup s
  | .table [(s, .null)] => names.lookup s
  | _ => none

/-- Each value under a name in capitals and in small letters. -/
def bothCases {α : Type} (name : α → String) (all : List α) : List (String × α) :=
  all.flatMap fun a => [(Text.upper (name a), a), (Text.lower (name a), a)]

def aggregateName (a : Aggregate) : String := Text.upper a.name
def comparatorName (c : Comparator) : String := Text.upper c.word

def aggregate? : Value → Option Aggregate := named (bothCases Aggregate.name Aggregate.all)
def comparator? : Value → Option Comparator := named (bothCases Comparator.word Comparator.all)
def connective? : Value → Option Connective := named (bothCases Connective.name [.and, .or])
def state? : Value → Option AlarmState := named (bothCases AlarmState.name AlarmState.all)
def severity? : Value → Option Severity := named (bothCases Severity.name Severity.all)

def statistic? : Value → Option Statistic :=
  named ([.sum, .average, .min, .max, .count, .last].map fun s : Statistic => (s.name, s))

def resolution? : Value → Option Resolution :=
  named ([.absolute, .seconds, .minutes].map fun r : Resolution => (r.name, r))

/-! ## Metrics -/

def text? : Value → Option String
  | .text s => some s
  | _ => none

def dimension? (e : Entry) : Option Dimension := (text? e.2).map (e.1, ·)

def dimensions? : Value → Option Dimensions
  | .table es => (es.mapM dimension?).map Dimensions.ofList
  | _ => none

/-- The value of a field; a field that is not there has a value of its own. -/
def fieldOr {α : Type} (absent : Option α) (decode : Value → Option α) (name : String)
    (es : List Entry) : Option α :=
  match es.lookup name with
  | some v => decode v
  | none => absent

def metric? : Value → Option Metric
  | .table es => do
    let name ← fieldOr none text? "name" es
    let dimensions ← fieldOr (some .empty) dimensions? "dimensions" es
    some ⟨name, dimensions⟩
  | .list [name] => (text? name).map .named
  | .list [name, dimensions] => do some ⟨← text? name, ← dimensions? dimensions⟩
  | _ => none

def ofMetric (m : Metric) : Value :=
  .table [("name", .text m.name),
    ("dimensions", .table (m.dimensions.entries.map fun e => (e.1, .text e.2)))]

/-! ## Settings -/

/-- An integer of sixty-four bits without sign. -/
def natural64? : Value → Option Nat
  | .integer n => if 0 ≤ n ∧ n < UInt64.size then some n.toNat else none
  | _ => none

/-- An integer of sixty-four bits with sign. -/
def integer64? : Value → Option Int
  | .integer n => Timestamp.checked n
  | _ => none

/-- The names of the fields of settings, in their order. -/
def settingsFields : List String :=
  ["num_future_slots", "min_delay_secs", "resolution", "log_level"]

/-- Settings of a table; fields that are not there have their default, and other entries are not
looked at. -/
def settingsOf? (es : List Entry) : Option Settings := do
  let futureSlots ← fieldOr (some Settings.default.futureSlots) natural64? "num_future_slots" es
  let minDelay ← fieldOr (some Settings.default.minDelaySeconds) integer64? "min_delay_secs" es
  let resolution ← fieldOr (some Settings.default.resolution) resolution? "resolution" es
  let logLevel ← fieldOr (some Settings.default.logLevel) text? "log_level" es
  some ⟨futureSlots, minDelay, resolution, logLevel⟩

def settings? : Value → Option Settings
  | .table es => settingsOf? es
  | .list vs => if vs.length ≤ 4 then settingsOf? (settingsFields.zip vs) else none
  | _ => none

def ofSettings (s : Settings) : Value :=
  .table [("num_future_slots", .integer s.futureSlots),
    ("min_delay_secs", .integer s.minDelaySeconds),
    ("resolution", .text s.resolution.name), ("log_level", .text s.logLevel)]

theorem resolution_name (r : Resolution) : resolution? (.text r.name) = some r := by
  cases r <;> decide +kernel

theorem decode_encode_settings (s : Settings) (hf : s.futureSlots < UInt64.size)
    (hd : Timestamp.InRange s.minDelaySeconds) : settings? (ofSettings s) = some s := by
  obtain ⟨f, d, r, l⟩ := s
  have hf : (f : Int) < 18446744073709551616 := by simp only [UInt64.size] at hf; omega
  simp only at hd
  simp [settings?, ofSettings, settingsOf?, fieldOr, List.lookup_cons, natural64?, integer64?,
    Timestamp.checked, resolution_name, text?, hf, hd]

/-! ## Texts -/

def condition (v : Value) : Except DecodeError Condition :=
  match v with
  | .text s => (Condition.compile s).mapError .text
  | _ => .error .form

def expression (v : Value) : Except DecodeError Expression :=
  match v with
  | .text s => (Expression.compile s).mapError .text
  | _ => .error .form

end MetricAlarm.Data
