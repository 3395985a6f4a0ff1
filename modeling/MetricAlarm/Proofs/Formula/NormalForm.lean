import MetricAlarm.Proofs.Formula.Monotone
import MetricAlarm.Proofs.Formula.Postfix
import MetricAlarm.Proofs.Formula.Tree

/-!
# Trees keep their programs

A node takes a later operand into its row only where the earlier operand is a row of the same
connective. So the rows of a tree, combined from the left, list the program again, and a tree in this
normal form belongs to one program only. Main statements: `Tree.join_cases`, from which all else
follows, `Tree.ofFormula_injective` and `Expression.tree_preserves`.
-/

namespace MetricAlarm

namespace Tree

/-! ## What a tree says -/

mutual

/-- A node of `and` holds when all its operands do, a node of `or` when one of them does. -/
def eval (v : Condition → Bool) : Tree → Bool
  | .leaf c => v c
  | .node .and operands => (values v operands).all id
  | .node .or operands => (values v operands).any id

def values (v : Condition → Bool) : List Tree → List Bool
  | [] => []
  | t :: ts => t.eval v :: values v ts

end

mutual

/-- The program that the tree lists; the operands of a node are combined from left to right. -/
def steps : Tree → Program
  | .leaf c => [.condition c]
  | .node connective operands => rowSteps connective operands

def rowSteps (connective : Connective) : List Tree → Program
  | [] => []
  | t :: ts => t.steps ++ laterSteps connective ts

/-- Each operand behind the first one is joined to what stands in front of it. -/
def laterSteps (connective : Connective) : List Tree → Program
  | [] => []
  | t :: ts => t.steps ++ .join connective :: laterSteps connective ts

end

/-- Every node has at least two operands, and the first of them is no node of the same connective. -/
inductive Normal : Tree → Prop
  | leaf (c : Condition) : Normal (.leaf c)
  | node {connective : Connective} {operands : List Tree} : 2 ≤ operands.length →
      (∀ more, operands.head? ≠ some (.node connective more)) → (∀ t ∈ operands, Normal t) →
      Normal (.node connective operands)

mutual

theorem leafCount_eq (t : Tree) : t.leafCount = t.leaves.length := by
  cases t with
  | leaf c => rfl
  | node connective operands => exact leafCountOf_eq operands

theorem leafCountOf_eq (ts : List Tree) : leafCountOf ts = (leavesOf ts).length := by
  cases ts with
  | nil => rfl
  | cons t ts => rw [leafCountOf, leavesOf, List.length_append, leafCount_eq t, leafCountOf_eq ts]

end

/-! ## Rows -/

theorem leavesOf_append (ts us : List Tree) : leavesOf (ts ++ us) = leavesOf ts ++ leavesOf us := by
  induction ts with
  | nil => rfl
  | cons t ts ih => rw [List.cons_append, leavesOf, leavesOf, ih, List.append_assoc]

theorem values_append (v : Condition → Bool) (ts us : List Tree) :
    values v (ts ++ us) = values v ts ++ values v us := by
  induction ts with
  | nil => rfl
  | cons t ts ih => rw [List.cons_append, values, values, ih, List.cons_append]

theorem laterSteps_append (c : Connective) (ts us : List Tree) :
    laterSteps c (ts ++ us) = laterSteps c ts ++ laterSteps c us := by
  induction ts with
  | nil => rfl
  | cons t ts ih =>
    rw [List.cons_append, laterSteps, laterSteps, ih, List.append_assoc, List.cons_append]

theorem rowSteps_append (c : Connective) {ts : List Tree} (h : ts ≠ []) (u : Tree) :
    rowSteps c (ts ++ [u]) = rowSteps c ts ++ u.steps ++ [.join c] := by
  obtain ⟨t, ts, rfl⟩ := List.exists_cons_of_ne_nil h
  rw [List.cons_append, rowSteps, rowSteps, laterSteps_append]
  simp only [laterSteps, List.append_assoc]

/-! ## Joined trees -/

/-- All that a join can do. -/
theorem join_cases (c : Connective) (t u : Tree) :
    (∃ operands, t = .node c operands ∧ join c t u = .node c (operands ++ [u])) ∨
    ((∀ operands, t ≠ .node c operands) ∧ join c t u = .node c [t, u]) := by
  cases t with
  | leaf k => exact Or.inr ⟨nofun, rfl⟩
  | node d operands =>
    by_cases h : d = c
    · subst h
      exact Or.inl ⟨operands, rfl, if_pos rfl⟩
    · refine Or.inr ⟨fun more heq => ?_, if_neg h⟩
      exact h (Tree.node.inj heq).1

variable {t u : Tree}

theorem leaves_join (c : Connective) (t u : Tree) :
    (join c t u).leaves = t.leaves ++ u.leaves := by
  obtain ⟨operands, rfl, hjoin⟩ | ⟨-, hjoin⟩ := join_cases c t u
  · rw [hjoin, leaves, leaves, leavesOf_append]
    simp only [leavesOf, List.append_nil]
  · rw [hjoin]
    simp only [leaves, leavesOf, List.append_nil]

theorem eval_join (v : Condition → Bool) (c : Connective) (t u : Tree) :
    (join c t u).eval v = c.apply (t.eval v) (u.eval v) := by
  obtain ⟨operands, rfl, hjoin⟩ | ⟨-, hjoin⟩ := join_cases c t u
  · rw [hjoin]
    cases c <;> simp [eval, values_append, values, Connective.apply]
  · rw [hjoin]
    cases c <;> simp [eval, values, Connective.apply]

theorem Normal.join (ht : t.Normal) (hu : u.Normal) (c : Connective) :
    (Tree.join c t u).Normal := by
  obtain ⟨operands, rfl, hjoin⟩ | ⟨hother, hjoin⟩ := join_cases c t u
  · cases ht with
    | node htwo hfirst hall =>
      obtain ⟨first, more, rfl⟩ := List.exists_cons_of_length_pos (Nat.zero_lt_of_lt htwo)
      rw [hjoin]
      refine .node ?_ hfirst (List.forall_mem_append.2 ⟨hall, List.forall_mem_singleton.2 hu⟩)
      rw [List.length_append]
      exact Nat.le_add_right_of_le htwo
  · rw [hjoin]
    refine .node (Nat.le_refl 2) (fun more heq => hother more (Option.some.inj heq)) ?_
    exact List.forall_mem_cons.2 ⟨ht, List.forall_mem_singleton.2 hu⟩

theorem Normal.steps_join (ht : t.Normal) (c : Connective) (u : Tree) :
    (Tree.join c t u).steps = t.steps ++ u.steps ++ [.join c] := by
  obtain ⟨operands, rfl, hjoin⟩ | ⟨-, hjoin⟩ := join_cases c t u
  · cases ht with
    | node htwo _ _ =>
      have hne : operands ≠ [] := List.length_pos_iff.1 (Nat.zero_lt_of_lt htwo)
      rw [hjoin, steps, steps, rowSteps_append c hne]
  · rw [hjoin, steps, rowSteps]
    simp only [laterSteps, List.append_assoc]

/-! ## Trees of formulas -/

theorem leaves_ofFormula (f : Formula) : (ofFormula f).leaves = f.leaves := by
  induction f with
  | condition c => rfl
  | join c left right ihl ihr => rw [ofFormula, leaves_join, ihl, ihr, Formula.leaves]

theorem eval_ofFormula (v : Condition → Bool) (f : Formula) : (ofFormula f).eval v = f.eval v := by
  induction f with
  | condition c => rfl
  | join c left right ihl ihr => rw [ofFormula, eval_join, ihl, ihr, Formula.eval]

theorem normal_ofFormula (f : Formula) : (ofFormula f).Normal := by
  induction f with
  | condition c => exact .leaf c
  | join c left right ihl ihr => exact ihl.join ihr c

theorem steps_ofFormula (f : Formula) : (ofFormula f).steps = f.steps := by
  induction f with
  | condition c => rfl
  | join c left right ihl ihr =>
    rw [ofFormula, (normal_ofFormula left).steps_join, ihl, ihr, Formula.steps]

theorem ofFormula_injective : Function.Injective ofFormula := by
  intro f g h
  apply Formula.steps_injective
  rw [← steps_ofFormula f, h, steps_ofFormula]

end Tree

namespace Expression

theorem same_iff {a b : Expression} : a.same b = true ↔ a.program = b.program := beq_iff_eq

/-- An expression has a tree in normal form. Its leaves are the conditions of the expression in their
order, it has the value of the expression, and it lists the program of the expression and is the tree
of no other one. -/
theorem tree_preserves {e : Expression}
    (he : (∃ text, compile text = .ok e) ∨ ∃ text p, ofProgram text p = .ok e) :
    ∃ t, e.tree = .ok t ∧ t.leaves = e.conditions ∧ t.leafCount = e.conditions.length ∧
      (∀ (values : Condition → Option Bool) (v : Condition → Bool),
        (∀ c ∈ e.conditions, values c = some (v c)) → e.evaluate values = .ok (t.eval v)) ∧
      t.Normal ∧ t.steps = e.program ∧
      ∀ e' : Expression,
        ((∃ text, compile text = .ok e') ∨ ∃ text p, ofProgram text p = .ok e') →
          (e'.tree = .ok t ↔ e'.same e = true) := by
  obtain ⟨f, hf⟩ := exists_formula he
  have hleaves : f.leaves = e.conditions := by
    rw [conditions, ← hf, Program.conditions, Formula.conditions_steps]
  have htree : (Tree.ofFormula f).leaves = e.conditions := (Tree.leaves_ofFormula f).trans hleaves
  refine ⟨Tree.ofFormula f, ?_, htree, ?_, ?_, Tree.normal_ofFormula f, ?_, ?_⟩
  · rw [tree, ← hf, Program.tree_steps]
  · rw [Tree.leafCount_eq, htree]
  · intro values v hv
    rw [evaluate, ← hf, Program.evaluate_steps (hleaves ▸ hv), Tree.eval_ofFormula]
  · rw [Tree.steps_ofFormula, hf]
  · intro e' he'
    obtain ⟨g, hg⟩ := exists_formula he'
    rw [same_iff, tree, ← hg, ← hf, Program.tree_steps, Except.ok.injEq,
      Tree.ofFormula_injective.eq_iff, Formula.steps_injective.eq_iff]

/-- The two ways to join three conditions differ as trees, although they always agree. -/
theorem tree_preserves_associated :
    let a : Condition := ⟨.max, .named "cpu", .gt, 90, 60, 1, false⟩
    let b : Condition := ⟨.avg, .named "load", .lte, 0.5, 120, 3, true⟩
    let left : Program :=
      [.condition a, .condition b, .join .and, .condition a, .join .and, .condition b, .join .or]
    let right : Program :=
      [.condition a, .condition b, .condition a, .join .and, .join .and, .condition b, .join .or]
    ∃ e e' t, ofProgram "left" left = .ok e ∧ ofProgram "right" right = .ok e' ∧
      e.tree = .ok t ∧ t = .node .or [.node .and [.leaf a, .leaf b, .leaf a], .leaf b] ∧
      t.leafCount = 4 ∧ t.Normal ∧ t.steps = left ∧ e'.tree ≠ .ok t := by
  intro a b left right
  have he : ofProgram "left" left = .ok ⟨"left", left⟩ := rfl
  have he' : ofProgram "right" right = .ok ⟨"right", right⟩ := rfl
  obtain ⟨t, ht, -, hcount, -, hnormal, hsteps, hequal⟩ := tree_preserves (Or.inr ⟨_, _, he⟩)
  obtain rfl : _ = t := Except.ok.inj ht
  refine ⟨_, _, _, he, he', rfl, rfl, hcount, hnormal, hsteps, ?_⟩
  rw [ne_eq, hequal _ (Or.inr ⟨_, _, he'⟩)]
  decide

end Expression

end MetricAlarm
