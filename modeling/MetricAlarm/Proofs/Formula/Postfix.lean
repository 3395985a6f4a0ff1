import MetricAlarm.Proofs.Condition.RoundTrip
import MetricAlarm.Proofs.Formula.Program

/-!
# Which programs are postfix forms

A text compiles to the postfix form of what it says: `Postfix` tells which programs are postfix
forms of a formula without saying how they are made. The check of a program only counts values. It
passes exactly the postfix forms of formulas, and a postfix form belongs to one formula: the machine
that runs on formulas builds it again. Main statements: `postfix_iff`, `compile_eq_ok_iff`,
`steps_injective`, `check_iff_exists_steps` and `ofProgram_eq_ok_iff`.
-/

namespace MetricAlarm

/-- The connective of a step, if it is one. -/
def Step.connective? : Step → Option Connective
  | .condition _ => none
  | .join connective => some connective

/-- The connectives of a program, in their order. -/
def Program.connectives (p : Program) : List Connective := p.filterMap Step.connective?

namespace Formula

/-! ## What a postfix form is -/

/-- A program is a formula in postfix form: a condition stands alone, and of two operands the left
one comes first and their connective last. -/
inductive Postfix : Formula → Program → Prop
  | condition (c : Condition) : Postfix (.condition c) [.condition c]
  | join {connective : Connective} {left right : Formula} {p q : Program} :
      Postfix left p → Postfix right q →
      Postfix (.join connective left right) (p ++ q ++ [.join connective])

theorem postfix_steps (f : Formula) : f.Postfix f.steps := by
  induction f with
  | condition c => exact .condition c
  | join connective left right ihl ihr => exact .join ihl ihr

theorem postfix_iff {f : Formula} {p : Program} : f.Postfix p ↔ p = f.steps := by
  constructor
  · intro h
    induction h with
    | condition c => rfl
    | join _ _ ihl ihr => rw [steps, ihl, ihr]
  · rintro rfl
    exact postfix_steps f

/-! ## Reading a postfix form back -/

/-- In the algebra of formulas the value of a formula is the formula itself. -/
theorem fold_self (f : Formula) : Program.fold condition join f = f := by
  induction f with
  | condition c => rfl
  | join connective left right ihl ihr => rw [Program.fold, ihl, ihr]

theorem steps_injective : Function.Injective steps := by
  intro f g h
  have hf := Program.run_steps condition join f []
  have hg := Program.run_steps condition join g []
  rw [fold_self] at hf hg
  rw [h, hg] at hf
  exact (List.cons.inj (Except.ok.inj hf)).1.symm

/-- Every connective takes two values and leaves one. -/
theorem length_leaves (f : Formula) :
    f.leaves.length = (Program.connectives f.steps).length + 1 := by
  induction f with
  | condition c => rfl
  | join connective left right ihl ihr =>
    have hsteps : Program.connectives (join connective left right).steps =
        Program.connectives left.steps ++ Program.connectives right.steps ++ [connective] := by
      simp [Program.connectives, steps, Step.connective?]
    rw [leaves, hsteps]
    simp only [List.length_append, List.length_singleton]
    omega

end Formula

namespace Program

/-! ## Counting -/

/-- A formula leaves one value more, whatever there is and whatever follows. -/
theorem depthAfter_steps (f : Formula) (depth : Nat) (p : Program) :
    depthAfter depth (f.steps ++ p) = depthAfter (depth + 1) p := by
  induction f generalizing depth p with
  | condition c => rfl
  | join connective left right ihl ihr =>
    have htwo : ¬ depth + 1 + 1 < 2 := by omega
    rw [Formula.steps, List.append_assoc, List.append_assoc, ihl, ihr]
    simp only [List.cons_append, List.nil_append, depthAfter, if_neg htwo]
    rfl

theorem check_steps (f : Formula) : check f.steps = .ok () := by
  have hdepth : depthAfter 0 f.steps = .ok 1 := by
    simpa [depthAfter] using depthAfter_steps f 0 []
  rw [check, hdepth]
  rfl

theorem check_iff_exists_steps (p : Program) :
    p.check = .ok () ↔ ∃ f : Formula, f.steps = p := by
  constructor
  · exact exists_formula_of_check
  · rintro ⟨f, rfl⟩
    exact check_steps f

end Program

namespace Expression

open Grammar

theorem ofProgram_of_check {p : Program} (text : String) (h : p.check = .ok ()) :
    ofProgram text p = .ok ⟨text, p⟩ := by
  rw [ofProgram, h]

/-- A list of steps makes an expression exactly when it is the postfix form of a formula. There is
then only one such formula; the conditions of the expression are its leaves from left to right, one
more than there are connectives. The program of a compiled text makes an expression again. -/
theorem ofProgram_eq_ok_iff (text : String) (p : Program) :
    ((∃ e, ofProgram text p = .ok e) ↔ ∃ f : Formula, f.steps = p) ∧
    (∀ e, ofProgram text p = .ok e → e.text = text ∧ e.program = p ∧
      p.conditions.length = p.connectives.length + 1 ∧
      ∃ f : Formula, (∀ g : Formula, g.steps = p ↔ g = f) ∧ e.conditions = f.leaves) ∧
    ∀ source e, compile source = .ok e → ofProgram source e.program = .ok e := by
  refine ⟨?_, ?_, ?_⟩
  · rw [← Program.check_iff_exists_steps]
    constructor
    · rintro ⟨e, he⟩
      exact (sound_of_ofProgram he).2
    · intro h
      exact ⟨_, ofProgram_of_check text h⟩
  · intro e he
    have hcheck := (sound_of_ofProgram he).2
    obtain ⟨f, rfl⟩ := Program.exists_formula_of_check hcheck
    rw [ofProgram_of_check text hcheck] at he
    obtain rfl := Except.ok.inj he
    have hconditions : Program.conditions f.steps = f.leaves := Formula.conditions_steps f
    refine ⟨rfl, rfl, ?_, f, fun g => Formula.steps_injective.eq_iff, hconditions⟩
    rw [hconditions, f.length_leaves]
  · intro source e he
    obtain ⟨f, -, rfl⟩ := exists_formula_of_compile he
    exact ofProgram_of_check source (Program.check_steps f)

/-- One condition at two places. Without the last connective two values are left. -/
theorem ofProgram_eq_ok_iff_twice :
    let a : Condition := ⟨.max, .named "cpu", .gt, 90, 60, 1, false⟩
    let b : Condition := ⟨.avg, .named "load", .lte, 0.5, 120, 3, true⟩
    let f : Formula := .join .and (.condition a) (.join .or (.condition b) (.condition a))
    let p : Program := [.condition a, .condition b, .condition a, .join .or, .join .and]
    (∃ e, ofProgram "twice" p = .ok e ∧ e.conditions = [a, b, a] ∧
      ∀ g : Formula, g.steps = p ↔ g = f) ∧
    (¬ ∃ g : Formula, g.steps = p.dropLast) ∧
    ∃ e, compile b.text = .ok e ∧ ofProgram b.text e.program = .ok e := by
  intro a b f p
  refine ⟨?_, ?_, ?_⟩
  · obtain ⟨-, -, -, g, hg, hleaves⟩ := (ofProgram_eq_ok_iff "twice" p).2.1 ⟨"twice", p⟩ rfl
    obtain rfl : f = g := (hg f).1 rfl
    exact ⟨_, rfl, hleaves, hg⟩
  · rw [← (ofProgram_eq_ok_iff "open" p.dropLast).1]
    rintro ⟨e, he⟩
    cases he
  · have hb : b.Printable := ⟨⟨by decide, nofun, nofun⟩, by decide +kernel⟩
    exact ⟨_, hb.compile_expression, (ofProgram_eq_ok_iff "" p).2.2 _ _ hb.compile_expression⟩

end Expression

end MetricAlarm
