/-!
# Unknown names

Functions, comparators, states and severities are read from their names. A text that names nothing
is reported with the names that would have been possible.
-/

namespace MetricAlarm

inductive NameKind
  | function
  | comparator
  | state
  | severity
  deriving DecidableEq, Repr

structure UnknownName where
  kind : NameKind
  given : String
  deriving DecidableEq, Repr

/-- What a name of the kind is called in messages. -/
def NameKind.title : NameKind → String
  | .function => "aggregate function"
  | .comparator => "alarm operator"
  | .state => "alarm state"
  | .severity => "alarm severity"

/-- The possible names, in the order in which messages list them. -/
def NameKind.choices : NameKind → List String
  | .function => ["min", "max", "sum", "count", "avg", "last"]
  | .comparator => ["<", "<=", ">", ">=", "lt", "lte", "gt", "gte"]
  | .state => ["UNDETERMINED", "OK", "ALARM"]
  | .severity => ["LOW", "MEDIUM", "HIGH", "CRITICAL"]

def UnknownName.message (e : UnknownName) : String :=
  "Invalid " ++ e.kind.title ++ ": '" ++ e.given ++ "'. Valid values: " ++
    ", ".intercalate e.kind.choices

end MetricAlarm
