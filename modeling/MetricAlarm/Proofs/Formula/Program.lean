import MetricAlarm.Formula.Program
import MetricAlarm.Proofs.Grammar.Formula

/-!
# Programs and formulas

A program that leaves one value is the postfix form of a formula, and evaluating it gives every
condition the value of its place. Main statements: `exists_formula_of_check` and
`evaluate_positional`.
-/

namespace MetricAlarm

namespace Formula

/-- The truth value when `v` gives the values of the places, the first condition standing at the
place `i`. -/
def holdsAt (v : Nat → Bool) (i : Nat) : Formula → Bool
  | .condition _ => v i
  | .join connective left right =>
    connective.apply (left.holdsAt v i) (right.holdsAt v (i + left.leaves.length))

end Formula

namespace Program

/-- Formulas on a stack, the last one uppermost, as the program that pushes them. -/
def stackSteps (stack : List Formula) : Program := stack.reverse.flatMap Formula.steps

theorem stackSteps_cons (f : Formula) (stack : List Formula) :
    stackSteps (f :: stack) = stackSteps stack ++ f.steps := by
  simp [stackSteps]

/-- The machine that only counts its values could as well hold formulas. -/
theorem exists_stack_of_depthAfter {p : Program} {stack : List Formula} {n : Nat}
    (h : depthAfter stack.length p = .ok n) :
    ∃ stack' : List Formula, stack'.length = n ∧ stackSteps stack' = stackSteps stack ++ p := by
  induction p generalizing stack with
  | nil =>
    obtain rfl := Except.ok.inj h
    exact ⟨stack, rfl, (List.append_nil _).symm⟩
  | cons s p ih =>
    cases s with
    | condition c =>
      obtain ⟨stack', hn, hs⟩ := @ih (.condition c :: stack) h
      refine ⟨stack', hn, ?_⟩
      rw [hs, stackSteps_cons, List.append_assoc]
      rfl
    | join connective =>
      simp only [depthAfter] at h
      split at h
      · cases h
      · next hlen =>
        obtain ⟨later, earlier, stack, rfl⟩ :
            ∃ later earlier rest, stack = later :: earlier :: rest := by
          match stack, hlen with
          | [], hlen | [_], hlen => simp at hlen
          | later :: earlier :: rest, _ => exact ⟨later, earlier, rest, rfl⟩
        obtain ⟨stack', hn, hs⟩ := @ih (.join connective earlier later :: stack) h
        refine ⟨stack', hn, ?_⟩
        rw [hs, stackSteps_cons, stackSteps_cons, stackSteps_cons, Formula.steps]
        simp only [List.append_assoc, List.singleton_append]

theorem exists_formula_of_check {p : Program} (h : p.check = .ok ()) :
    ∃ f : Formula, f.steps = p := by
  unfold check at h
  split at h
  · cases h
  · next n hn =>
    split at h
    · next hone =>
      obtain ⟨stack, hlen, hs⟩ := @exists_stack_of_depthAfter p [] n hn
      obtain ⟨f, rfl⟩ := List.length_eq_one_iff.1 (hlen.trans hone)
      exact ⟨f, by simpa [stackSteps] using hs⟩
    · cases h

theorem run_positional {leaf : Condition → Except ExpressionError Bool} {v : Nat → Bool}
    {f : Formula} {i : Nat}
    (h : ∀ k c, f.leaves[k]? = some c → leaf c = .ok (v (i + k))) (stack : List Bool) :
    run leaf Connective.apply stack f.steps = .ok (f.holdsAt v i :: stack) := by
  induction f generalizing i stack with
  | condition c =>
    have hc : leaf c = .ok (v i) := h 0 c rfl
    simp only [Formula.steps, run, step, hc, Except.map, Formula.holdsAt]
  | join connective left right ihl ihr =>
    have hl : ∀ k c, left.leaves[k]? = some c → leaf c = .ok (v (i + k)) := by
      intro k c hk
      obtain ⟨hlt, -⟩ := List.getElem?_eq_some_iff.1 hk
      exact h k c (by rw [Formula.leaves, List.getElem?_append_left hlt, hk])
    have hr : ∀ k c, right.leaves[k]? = some c →
        leaf c = .ok (v (i + left.leaves.length + k)) := by
      intro k c hk
      rw [Nat.add_assoc]
      exact h _ c (by
        rw [Formula.leaves, List.getElem?_append_right (Nat.le_add_right _ _),
          Nat.add_sub_cancel_left, hk])
    simp only [Formula.steps, run_append, ihl hl, ihr hr, run, step, Formula.holdsAt]

/-- When every condition of a formula has the value of its place, so has the program. -/
theorem evaluate_positional {values : Condition → Option Bool} {v : Nat → Bool} {f : Formula}
    (h : ∀ k c, f.leaves[k]? = some c → values c = some (v k)) :
    evaluate values f.steps = .ok (f.holdsAt v 0) := by
  unfold evaluate result
  rw [@run_positional _ v f 0 ?_ []]
  intro k c hk
  rw [h k c hk, Nat.zero_add]

end Program

namespace Expression

/-- Compiled or built by hand, the program of an expression is the postfix form of a formula. -/
theorem exists_formula {e : Expression}
    (h : (∃ text, compile text = .ok e) ∨ ∃ text p, ofProgram text p = .ok e) :
    ∃ f : Formula, f.steps = e.program := by
  rcases h with ⟨text, h⟩ | ⟨text, p, h⟩
  · obtain ⟨f, -, rfl⟩ := exists_formula_of_compile h
    exact ⟨f, rfl⟩
  · obtain ⟨rfl, hcheck⟩ := sound_of_ofProgram h
    exact Program.exists_formula_of_check hcheck

end Expression

end MetricAlarm
