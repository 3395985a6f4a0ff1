import MetricAlarm.Text.LetterCase
import MetricAlarm.UnknownName

/-!
# Comparators

A comparator relates an aggregated value to a threshold. Main statements: `holds_iff`,
`mirror_mirror` and `ofText?_symbol`.
-/

namespace MetricAlarm

inductive Comparator
  | lt
  | lte
  | gt
  | gte
  deriving DecidableEq, Repr

namespace Comparator

def symbol : Comparator → String
  | .lt => "<"
  | .lte => "<="
  | .gt => ">"
  | .gte => ">="

/-- The name in letters. -/
def word : Comparator → String
  | .lt => "lt"
  | .lte => "lte"
  | .gt => "gt"
  | .gte => "gte"

def all : List Comparator := [.lt, .lte, .gt, .gte]

/-- Whether the comparison holds; never with not-a-number on either side. -/
def holds (c : Comparator) (left right : Float) : Bool :=
  match c with
  | .lt => left < right
  | .lte => left ≤ right
  | .gt => left > right
  | .gte => left ≥ right

theorem holds_iff {c : Comparator} {x y : Float} : c.holds x y = true ↔
    c = .lt ∧ x < y ∨ c = .lte ∧ x ≤ y ∨ c = .gt ∧ x > y ∨ c = .gte ∧ x ≥ y := by
  cases c <;> simp [holds]

/-- The comparator of the same comparison with its sides exchanged. -/
def mirror : Comparator → Comparator
  | .lt => .gt
  | .lte => .gte
  | .gt => .lt
  | .gte => .lte

@[simp] theorem mirror_mirror (c : Comparator) : c.mirror.mirror = c := by cases c <;> rfl

theorem holds_mirror (c : Comparator) (x y : Float) : c.mirror.holds x y = c.holds y x := by
  cases c <;> rfl

/-- The comparator that is named in letters, in any case. -/
def ofWord? (s : String) : Option Comparator := all.find? fun c => c.word == Text.lower s

def ofText? (s : String) : Option Comparator :=
  match all.find? fun c => c.symbol == s with
  | some c => some c
  | none => ofWord? s

theorem ofText?_symbol (c : Comparator) : ofText? c.symbol = some c := by
  cases c <;> decide +kernel

def parse (s : String) : Except UnknownName Comparator :=
  match ofText? s with
  | some c => .ok c
  | none => .error ⟨.comparator, s⟩

end Comparator

end MetricAlarm
