import MetricAlarm.Formula.Error

/-!
# Formulas and their postfix form

A formula joins conditions by connectives. Its postfix form lists the steps of a stack machine:
a condition pushes its value, a connective takes two values and pushes one. Main statement:
`conditions_steps`, the postfix form keeps the conditions in their order.
-/

namespace MetricAlarm

inductive Formula
  | condition (c : Condition)
  | join (connective : Connective) (left right : Formula)
  deriving DecidableEq

/-- A step of a program. -/
inductive Step
  | condition (c : Condition)
  | join (connective : Connective)
  deriving DecidableEq

namespace Step

/-- The condition of a step, if it is one. -/
def condition? : Step → Option Condition
  | .condition c => some c
  | .join _ => none

def text : Step → String
  | .condition c => c.text
  | .join connective => connective.name

end Step

namespace Formula

/-- The postfix form: left operand, right operand, connective. -/
def steps : Formula → List Step
  | .condition c => [.condition c]
  | .join connective left right => left.steps ++ right.steps ++ [.join connective]

/-- The conditions from left to right. -/
def leaves : Formula → List Condition
  | .condition c => [c]
  | .join _ left right => left.leaves ++ right.leaves

theorem conditions_steps (f : Formula) : f.steps.filterMap Step.condition? = f.leaves := by
  induction f with
  | condition c => rfl
  | join connective left right ihl ihr => simp [steps, leaves, ihl, ihr, Step.condition?]

/-- The truth value when `v` gives the value of each condition. -/
def eval (v : Condition → Bool) : Formula → Bool
  | .condition c => v c
  | .join connective left right => connective.apply (left.eval v) (right.eval v)

end Formula

end MetricAlarm
