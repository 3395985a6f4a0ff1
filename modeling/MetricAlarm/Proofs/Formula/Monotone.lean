import MetricAlarm.Proofs.Formula.Program

/-!
# More truth makes formulas no less true

Formulas have no negation, so what holds goes on holding when more conditions hold. A formula whose
conditions all have one value has it too. Main statements: `Formula.eval_mono` and
`Program.evaluate_mono`.
-/

namespace MetricAlarm

theorem Connective.apply_mono (c : Connective) {a a' b b' : Bool} (ha : a ≤ a') (hb : b ≤ b') :
    c.apply a b ≤ c.apply a' b' := by
  revert a a' b b'
  cases c <;> decide

theorem Connective.apply_self (c : Connective) (b : Bool) : c.apply b b = b := by
  cases c <;> cases b <;> rfl

namespace Formula

variable {f : Formula} {v v' : Condition → Bool}

theorem eval_mono (h : ∀ c ∈ f.leaves, v c ≤ v' c) : f.eval v ≤ f.eval v' := by
  induction f with
  | condition c => exact h c List.mem_cons_self
  | join connective left right ihl ihr =>
    rw [leaves, List.forall_mem_append] at h
    exact connective.apply_mono (ihl h.1) (ihr h.2)

theorem eval_of_forall_eq {b : Bool} (h : ∀ c ∈ f.leaves, v c = b) : f.eval v = b := by
  induction f with
  | condition c => exact h c List.mem_cons_self
  | join connective left right ihl ihr =>
    rw [leaves, List.forall_mem_append] at h
    rw [eval, ihl h.1, ihr h.2, connective.apply_self]

end Formula

namespace Program

/-- The machine computes the truth value of a formula on top of whatever stack it finds. -/
theorem run_eval {leaf : Condition → Except ExpressionError Bool} {v : Condition → Bool}
    {f : Formula} (h : ∀ c ∈ f.leaves, leaf c = .ok (v c)) (stack : List Bool) :
    run leaf Connective.apply stack f.steps = .ok (f.eval v :: stack) := by
  induction f generalizing stack with
  | condition c =>
    have hc : leaf c = .ok (v c) := h c List.mem_cons_self
    simp only [Formula.steps, run, step, hc, Except.map, Formula.eval]
  | join connective left right ihl ihr =>
    rw [Formula.leaves, List.forall_mem_append] at h
    simp only [Formula.steps, run_append, ihl h.1, ihr h.2, run, step, Formula.eval]

theorem evaluate_steps {values : Condition → Option Bool} {v : Condition → Bool} {f : Formula}
    (h : ∀ c ∈ f.leaves, values c = some (v c)) : evaluate values f.steps = .ok (f.eval v) := by
  unfold evaluate result
  rw [run_eval (v := v) fun c hc => by rw [h c hc]]

variable {f : Formula} {values values' : Condition → Option Bool}

/-- Raising truth values keeps a program true. -/
theorem evaluate_mono
    (h : ∀ c ∈ f.leaves, ∃ b b', values c = some b ∧ values' c = some b' ∧ b ≤ b')
    (htrue : evaluate values f.steps = .ok true) : evaluate values' f.steps = .ok true := by
  let v : Condition → Bool := fun c => (values c).getD false
  let v' : Condition → Bool := fun c => (values' c).getD false
  have hv : ∀ c ∈ f.leaves, values c = some (v c) := by
    intro c hc
    obtain ⟨b, b', hb, -⟩ := h c hc
    simp only [v, hb, Option.getD_some]
  have hv' : ∀ c ∈ f.leaves, values' c = some (v' c) := by
    intro c hc
    obtain ⟨b, b', -, hb', -⟩ := h c hc
    simp only [v', hb', Option.getD_some]
  have hle : ∀ c ∈ f.leaves, v c ≤ v' c := by
    intro c hc
    obtain ⟨b, b', hb, hb', hbb'⟩ := h c hc
    simpa only [v, v', hb, hb', Option.getD_some] using hbb'
  rw [evaluate_steps hv, Except.ok.injEq] at htrue
  rw [evaluate_steps hv', Except.ok.injEq]
  exact Formula.eval_mono hle htrue

theorem evaluate_of_forall_eq {b : Bool} (h : ∀ c ∈ f.leaves, values c = some b) :
    evaluate values f.steps = .ok b := by
  rw [evaluate_steps (v := fun _ => b) h, Formula.eval_of_forall_eq fun _ _ => rfl]

end Program

end MetricAlarm
