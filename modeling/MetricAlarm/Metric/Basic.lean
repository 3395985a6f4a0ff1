import MetricAlarm.Metric.Dimensions

/-!
# Metrics

A metric is a name with dimensions. As a definition it selects every sample that has its name and
at least its dimensions. Main statement: `selects_iff`, which says so entry by entry.
-/

namespace MetricAlarm

structure Metric where
  name : String
  dimensions : Dimensions
  deriving DecidableEq

namespace Metric

def named (name : String) : Metric := ⟨name, .empty⟩

/-- The metric with one more dimension; an earlier value of the dimension is replaced. -/
def withDimension (m : Metric) (name value : String) : Metric :=
  { m with dimensions := m.dimensions.insert name value }

/-- Whether a sample of `sample` belongs to the series that `m` selects. -/
def selects (m sample : Metric) : Bool :=
  m.name == sample.name &&
    m.dimensions.entries.all fun e => sample.dimensions.get? e.1 == some e.2

theorem selects_iff (m sample : Metric) :
    m.selects sample = true ↔
      m.name = sample.name ∧ ∀ e ∈ m.dimensions.entries, sample.dimensions.get? e.1 = some e.2 := by
  simp [selects]

/-- Text of a dimension: `name=value`. -/
def dimensionText (e : Dimension) : String := e.1 ++ "=" ++ e.2

/-- Text of the metric as expressions write it; no braces without dimensions. -/
def text (m : Metric) : String :=
  if m.dimensions.entries = [] then m.name
  else
    m.name ++ "\x7b" ++ ", ".intercalate (m.dimensions.entries.map dimensionText) ++ "\x7d"

/-- Order by name, then by dimensions. -/
def compare (a b : Metric) : Ordering :=
  (Ord.compare a.name b.name).then (compareEntries a.dimensions.entries b.dimensions.entries)

def sort (ms : List Metric) : List Metric := ms.mergeSort fun a b => (a.compare b).isLE

end Metric

end MetricAlarm
