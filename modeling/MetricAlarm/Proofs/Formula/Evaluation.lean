import MetricAlarm.Proofs.Formula.Composition
import MetricAlarm.Proofs.Formula.Postfix

/-!
# What an evaluation means

The stack machine walks over a program and stops at the first condition that has no value. If it
does not stop, it gives the truth of the formula that the program lists. Main statements:
`Formula.value_truth` and `Expression.evaluate_meaning`.
-/

namespace MetricAlarm

/-- `c` has no value, and every condition in front of it has one. -/
def FirstMissing (values : Condition → Option Bool) (cs : List Condition) (c : Condition) : Prop :=
  ∃ before after, cs = before ++ c :: after ∧ values c = none ∧ ∀ d ∈ before, values d ≠ none

variable {values : Condition → Option Bool} {cs : List Condition} {c : Condition}

theorem find?_isNone_eq_some :
    cs.find? (fun c => (values c).isNone) = some c ↔ FirstMissing values cs c := by
  rw [List.find?_eq_some_iff_append]
  constructor
  · rintro ⟨hc, before, after, rfl, hbefore⟩
    refine ⟨before, after, rfl, Option.isNone_iff_eq_none.1 hc, fun d hd hnone => ?_⟩
    simpa [hnone] using hbefore d hd
  · rintro ⟨before, after, rfl, hc, hbefore⟩
    refine ⟨Option.isNone_iff_eq_none.2 hc, before, after, rfl, fun d hd => ?_⟩
    rw [Bool.not_eq_true', Option.isNone_eq_false_iff, Option.isSome_iff_ne_none]
    exact hbefore d hd

theorem exists_firstMissing (hmem : c ∈ cs) (hc : values c = none) :
    ∃ d, FirstMissing values cs d := by
  cases hfind : cs.find? (fun c => (values c).isNone) with
  | some d => exact ⟨d, find?_isNone_eq_some.1 hfind⟩
  | none => exact absurd (Option.isNone_iff_eq_none.2 hc) (List.find?_eq_none.1 hfind c hmem)

namespace Formula

/-- The truth of a formula in a table: `and` is conjunction, `or` is disjunction. -/
def Holds (values : Condition → Option Bool) : Formula → Prop
  | .condition c => values c = some true
  | .join .and left right => left.Holds values ∧ right.Holds values
  | .join .or left right => left.Holds values ∨ right.Holds values

/-- Truth values are read as false where the table has none. -/
theorem eval_eq_true_iff (f : Formula) :
    f.eval (fun c => (values c).getD false) = true ↔ f.Holds values := by
  induction f with
  | condition c =>
    rw [eval, Holds]
    cases values c <;> simp
  | join connective left right ihl ihr =>
    cases connective with
    | and => rw [eval, Holds, Connective.apply, Bool.and_eq_true, ihl, ihr]
    | or => rw [eval, Holds, Connective.apply, Bool.or_eq_true, ihl, ihr]

instance (values : Condition → Option Bool) (f : Formula) : Decidable (f.Holds values) :=
  decidable_of_iff _ f.eval_eq_true_iff

/-- Left operands come first, so the condition at which a formula fails to have a value is the first
one of its leaves that has none. -/
theorem value_truth (values : Condition → Option Bool) (f : Formula) :
    f.value (Program.truth values) Connective.apply =
      match f.leaves.find? (fun c => (values c).isNone) with
      | some c => .error (.missingValue c)
      | none => .ok (f.eval fun c => (values c).getD false) := by
  induction f with
  | condition c =>
    rw [value, Program.truth, leaves, List.find?_singleton, eval]
    cases values c <;> rfl
  | join connective left right ihl ihr =>
    rw [value, leaves, List.find?_append, ihl, ihr]
    cases left.leaves.find? (fun c => (values c).isNone) with
    | some c => rfl
    | none => cases right.leaves.find? (fun c => (values c).isNone) <;> rfl

end Formula

namespace Program

variable {f : Formula}

theorem evaluate_steps_eq_error_iff {error : ExpressionError} :
    evaluate values f.steps = .error error ↔
      ∃ c, FirstMissing values f.leaves c ∧ error = .missingValue c := by
  rw [evaluate_steps_value, Formula.value_truth]
  simp only [← find?_isNone_eq_some]
  cases f.leaves.find? (fun c => (values c).isNone) with
  | some c => simp [eq_comm]
  | none => simp

theorem evaluate_steps_of_total (h : ∀ c ∈ f.leaves, values c ≠ none) :
    ∃ b, evaluate values f.steps = .ok b ∧ (b = true ↔ f.Holds values) := by
  have hfind : f.leaves.find? (fun c => (values c).isNone) = none := by
    rw [List.find?_eq_none]
    intro c hc hnone
    exact h c hc (Option.isNone_iff_eq_none.1 hnone)
  refine ⟨_, ?_, f.eval_eq_true_iff⟩
  rw [evaluate_steps_value, Formula.value_truth, hfind]

end Program

namespace Expression

/-- The program of an expression lists one formula. If a condition has no value, evaluation reports
the first such one, whatever the connectives make of the others; if all have one, it gives the truth
of the formula. It fails in no other way. -/
theorem evaluate_meaning {e : Expression}
    (he : (∃ text, compile text = .ok e) ∨ ∃ text p, ofProgram text p = .ok e) :
    ∃ f : Formula, (∀ g : Formula, g.steps = e.program ↔ g = f) ∧
      ∀ values : Condition → Option Bool,
        ((∃ error, e.evaluate values = .error error) ↔ ∃ c ∈ e.conditions, values c = none) ∧
        (∀ error, e.evaluate values = .error error ↔ ∃ c, FirstMissing values e.conditions c ∧
          error = .missingValue c ∧
          error.message = "Expected sub-expression was not found for " ++ c.text) ∧
        (∀ fault, e.evaluate values ≠ .error (.malformedProgram fault)) ∧
        ((∀ c ∈ e.conditions, values c ≠ none) →
          ∃ b, e.evaluate values = .ok b ∧ (b = true ↔ f.Holds values)) := by
  obtain ⟨f, hf⟩ := exists_formula he
  have hleaves : e.conditions = f.leaves := by
    rw [conditions, ← hf, Program.conditions, Formula.conditions_steps]
  refine ⟨f, fun g => hf ▸ Formula.steps_injective.eq_iff, fun values => ?_⟩
  have herror : ∀ error, e.evaluate values = .error error ↔
      ∃ c, FirstMissing values e.conditions c ∧ error = .missingValue c := by
    intro error
    rw [evaluate, ← hf, Program.evaluate_steps_eq_error_iff, hleaves]
  refine ⟨⟨?_, ?_⟩, ?_, ?_, ?_⟩
  · rintro ⟨error, h⟩
    obtain ⟨c, ⟨before, after, hsplit, hnone, -⟩, -⟩ := (herror error).1 h
    exact ⟨c, by simp [hsplit], hnone⟩
  · rintro ⟨c, hc, hnone⟩
    obtain ⟨d, hd⟩ := exists_firstMissing hc hnone
    exact ⟨_, (herror _).2 ⟨d, hd, rfl⟩⟩
  · intro error
    rw [herror]
    refine exists_congr fun c => and_congr_right fun _ => ⟨?_, And.left⟩
    rintro rfl
    exact ⟨rfl, rfl⟩
  · intro fault h
    obtain ⟨c, -, hfault⟩ := (herror _).1 h
    cases hfault
  · intro htotal
    rw [evaluate, ← hf]
    exact Program.evaluate_steps_of_total (hleaves ▸ htotal)

/-- The right operand of a disjunction that already holds is missed nevertheless, and before the
condition that comes after it. -/
theorem evaluate_meaning_decided :
    let a : Condition := ⟨.max, .named "cpu", .gt, 90, 60, 1, false⟩
    let b : Condition := ⟨.avg, .named "load", .lte, 0.5, 120, 3, true⟩
    let c : Condition := ⟨.last, .named "disk", .gte, 0.9, 60, 1, false⟩
    let p : Program := [.condition a, .condition b, .join .or, .condition c, .join .and]
    ∃ e, ofProgram "decided" p = .ok e ∧
      e.evaluate (valueOf [(a, true)]) = .error (.missingValue b) ∧
      e.evaluate (valueOf [(a, true), (b, false), (c, true)]) = .ok true := by
  intro a b c p
  have he : ofProgram "decided" p = .ok ⟨"decided", p⟩ := rfl
  obtain ⟨f, hf, hmeaning⟩ := evaluate_meaning (Or.inr ⟨"decided", p, he⟩)
  obtain rfl : _ = f :=
    (hf (.join .and (.join .or (.condition a) (.condition b)) (.condition c))).1 rfl
  refine ⟨_, he, ?_, ?_⟩
  · refine ((hmeaning _).2.1 _).2 ⟨b, ⟨[a], [c], rfl, by decide +kernel, ?_⟩, rfl, rfl⟩
    exact List.forall_mem_singleton.2 (by decide +kernel)
  · obtain ⟨value, hvalue, hholds⟩ :=
      (hmeaning (valueOf [(a, true), (b, false), (c, true)])).2.2.2 (by decide +kernel)
    rw [hvalue, hholds.2 (by decide +kernel)]

end Expression

end MetricAlarm
