import MetricAlarm.Formula.Tree

/-!
# Programs

A program is a list of steps for a stack machine. `run` is that machine for any kind of value:
with truth values it evaluates the program, with trees it displays it, and with formulas it undoes
`Formula.steps`. Main statement: `run_steps`, running the postfix form of a formula pushes the
formula's value.
-/

namespace MetricAlarm

abbrev Program := List Step

namespace Program

def conditions (p : Program) : List Condition := p.filterMap Step.condition?

/-- Run a step: a condition pushes what `leaf` gives for it, a connective replaces the two values
on top, of which the later one is uppermost. -/
def step {α : Type} (leaf : Condition → Except ExpressionError α) (join : Connective → α → α → α)
    (stack : List α) : Step → Except ExpressionError (List α)
  | .condition c => (leaf c).map (· :: stack)
  | .join connective =>
    match stack with
    | later :: earlier :: stack => .ok (join connective earlier later :: stack)
    | _ => .error (.malformedProgram (.missingOperand connective))

def run {α : Type} (leaf : Condition → Except ExpressionError α) (join : Connective → α → α → α)
    (stack : List α) : Program → Except ExpressionError (List α)
  | [] => .ok stack
  | s :: p =>
    match step leaf join stack s with
    | .error e => .error e
    | .ok stack => run leaf join stack p

/-- The value of a program that leaves exactly one. -/
def result {α : Type} (leaf : Condition → Except ExpressionError α)
    (join : Connective → α → α → α) (p : Program) : Except ExpressionError α :=
  match run leaf join [] p with
  | .error e => .error e
  | .ok [x] => .ok x
  | .ok stack => .error (.malformedProgram (.valuesLeft stack.length))

/-- The number of values on the stack after a program that starts with `depth` of them. -/
def depthAfter (depth : Nat) : Program → Except ProgramFault Nat
  | [] => .ok depth
  | .condition _ :: p => depthAfter (depth + 1) p
  | .join connective :: p =>
    if depth < 2 then .error (.missingOperand connective) else depthAfter (depth - 1) p

/-- A program is sound when it leaves one value. -/
def check (p : Program) : Except ProgramFault Unit :=
  match depthAfter 0 p with
  | .error e => .error e
  | .ok n => if n = 1 then .ok () else .error (.valuesLeft n)

/-- Evaluate with the truth values of the conditions; a condition without a value is an error, even
where the other values would decide. -/
def evaluate (values : Condition → Option Bool) (p : Program) : Except ExpressionError Bool :=
  result
    (fun c => match values c with | some b => .ok b | none => .error (.missingValue c))
    Connective.apply p

def tree (p : Program) : Except ExpressionError Tree :=
  result (fun c => .ok (.leaf c)) Tree.join p

theorem run_append {α : Type} (leaf : Condition → Except ExpressionError α)
    (join : Connective → α → α → α) (p q : Program) (stack : List α) :
    run leaf join stack (p ++ q) =
      match run leaf join stack p with
      | .error e => .error e
      | .ok stack => run leaf join stack q := by
  induction p generalizing stack with
  | nil => rfl
  | cons s p ih =>
    simp only [List.cons_append, run]
    split
    · rfl
    · exact ih _

/-- The value of a formula in an algebra of connectives. -/
def fold {α : Type} (leaf : Condition → α) (join : Connective → α → α → α) : Formula → α
  | .condition c => leaf c
  | .join connective left right => join connective (fold leaf join left) (fold leaf join right)

theorem run_steps {α : Type} (leaf : Condition → α) (join : Connective → α → α → α) (f : Formula)
    (stack : List α) :
    run (fun c => .ok (leaf c)) join stack f.steps = .ok (fold leaf join f :: stack) := by
  induction f generalizing stack with
  | condition c => rfl
  | join connective left right ihl ihr =>
    simp only [Formula.steps, run_append, ihl, ihr, run, step, fold]

end Program

end MetricAlarm
