import MetricAlarm.Formula.Program
import MetricAlarm.Grammar.Formula

/-!
# Alarm expressions

An expression is a text with the program it was compiled to. Expressions are compared by their
programs: `a > 1 and b > 1` and `b > 1 and a > 1` differ although they always agree. Main
statement: `sound_of_ofProgram`, a program built by hand leaves one value.
-/

namespace MetricAlarm

structure Expression where
  text : String
  program : Program

namespace Expression

/-- Equality of expressions looks at the programs only. -/
def same (a b : Expression) : Bool := a.program == b.program

/-- Read a text and list its formula in postfix form. -/
def compile (text : String) : Except ExpressionError Expression :=
  (Grammar.read text).map fun f => ⟨text, f.steps⟩

/-- An expression of a program that was built by hand. -/
def ofProgram (text : String) (p : Program) : Except ExpressionError Expression :=
  match p.check with
  | .error fault => .error (.malformedProgram fault)
  | .ok _ => .ok ⟨text, p⟩

/-- The conditions in their order, one per place. -/
def conditions (e : Expression) : List Condition := e.program.conditions

def evaluate (e : Expression) (values : Condition → Option Bool) : Except ExpressionError Bool :=
  e.program.evaluate values

def tree (e : Expression) : Except ExpressionError Tree := e.program.tree

/-- Whether there is a condition and all conditions are deterministic. -/
def isDeterministic (e : Expression) : Bool :=
  e.conditions != [] && e.conditions.all (·.deterministic)

theorem sound_of_ofProgram {text : String} {p : Program} {e : Expression}
    (h : ofProgram text p = .ok e) : e.program = p ∧ p.check = .ok () := by
  unfold ofProgram at h
  split at h
  · simp at h
  · next hc => cases h; exact ⟨rfl, hc⟩

end Expression

/-- Compile a text that holds a single condition. -/
def Condition.compile (text : String) : Except ExpressionError Condition :=
  match Expression.compile text with
  | .error e => .error e
  | .ok ⟨_, [.condition c]⟩ => .ok c
  | .ok _ => .error (.compound text)

/-- A table of truth values in which later entries replace earlier ones. -/
def valueOf (entries : List (Condition × Bool)) (c : Condition) : Option Bool :=
  entries.reverse.lookup c

end MetricAlarm
