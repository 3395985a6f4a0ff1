import MetricAlarm.Proofs.Condition.RoundTrip
import MetricAlarm.Proofs.Formula.Program

/-!
# The text of a tree is a source of its formula

A tree shows operands of one connective in a row and puts every row in parentheses. Rows are read
from the left and only earlier operands were merged into them, so that the text is read as the
formula that the tree was made of. Main statement: `compile_tree_text`.
-/

namespace MetricAlarm

open Grammar Token

theorem isName_connective (c : Connective) : IsName c.name := by
  cases c <;> decide

/-- A connective with blanks around it. -/
theorem spells_connective (c : Connective) {cs : List Char} {us : List Token}
    (h : Spells cs us) :
    Spells (' ' :: (c.name.toList ++ ' ' :: cs)) (.word c.name :: us) := by
  have hblank : Spells (' ' :: cs) us := h.blank (by decide)
  have hname := (spells_word (isName_connective c)).append (by decide) hblank
  exact hname.blank (by decide)

namespace Tree

/-- The operands of a node, without the parentheses. -/
def row (c : Connective) (operands : List Tree) : String :=
  (" " ++ c.name ++ " ").intercalate (texts operands)

theorem texts_append (ts us : List Tree) : texts (ts ++ us) = texts ts ++ texts us := by
  induction ts with
  | nil => rfl
  | cons t ts ih => rw [List.cons_append, texts, ih, texts, List.cons_append]

theorem texts_ne_nil {ts : List Tree} (h : ts ≠ []) : texts ts ≠ [] := by
  cases ts with
  | nil => exact absurd rfl h
  | cons t ts => exact List.cons_ne_nil _ _

theorem toList_row_append (c : Connective) {operands : List Tree} (h : operands ≠ []) (t : Tree) :
    (row c (operands ++ [t])).toList =
      (row c operands).toList ++ ' ' :: (c.name.toList ++ ' ' :: t.text.toList) := by
  have hlast : texts [t] = [t.text] := rfl
  rw [row, texts_append, hlast, String.intercalate_append_of_ne_nil (texts_ne_nil h) (by simp)]
  simp [row]

theorem toList_text_node (c : Connective) (operands : List Tree) :
    (node c operands).text.toList = '(' :: ((row c operands).toList ++ [')']) := by
  simp [text, row]

/-- The text of a tree is read as a formula; the row of a node can be gone on with. -/
def Reads (f : Formula) : Tree → Prop
  | .leaf c => ∃ us, FormulaPhrase .primary us f ∧ Spells c.text.toList us
  | .node c operands => operands ≠ [] ∧
    ∃ us, FormulaPhrase (level c) us f ∧ Spells (row c operands).toList us

variable {f g : Formula} {t u : Tree}

theorem Reads.primary (h : Reads f t) :
    ∃ us, FormulaPhrase .primary us f ∧ Spells t.text.toList us := by
  cases t with
  | leaf c => exact h
  | node c operands =>
    obtain ⟨-, us, hf, hus⟩ := h
    refine ⟨_, .parentheses hf.whole, fun rest vs _ hrest => ?_⟩
    simpa [toList_text_node] using hus.apart.parentheses hrest

/-- One more operand behind a row. -/
theorem Reads.append {c : Connective} {operands : List Tree} (h : Reads f (.node c operands))
    (hu : Reads g u) : Reads (.join c f g) (.node c (operands ++ [u])) := by
  obtain ⟨hne, us, hf, hus⟩ := h
  obtain ⟨vs, hg, hvs⟩ := hu.primary
  refine ⟨by simp, _, hf.next (.word (sameIgnoringCase_iff.2 rfl)) hg, ?_⟩
  rw [toList_row_append c hne]
  exact hus.append (by decide) (spells_connective c hvs)

/-- An operand on its own is a row. -/
theorem Reads.single (h : Reads f t) (c : Connective) : Reads f (.node c [t]) := by
  obtain ⟨us, hf, hus⟩ := h.primary
  refine ⟨by simp, us, hf.first c, ?_⟩
  simpa [row, texts] using hus

theorem Reads.join (h : Reads f t) (hu : Reads g u) (c : Connective) :
    Reads (.join c f g) (Tree.join c t u) := by
  have hpair : Reads (.join c f g) (.node c [t, u]) := (h.single c).append hu
  cases t with
  | leaf _ => exact hpair
  | node d operands =>
    have hjoin : Tree.join c (.node d operands) u =
        if d = c then .node d (operands ++ [u]) else .node c [.node d operands, u] := rfl
    rw [hjoin]
    split
    · next hd =>
      subst hd
      exact h.append hu
    · exact hpair

theorem reads_ofFormula (h : ∀ c ∈ f.leaves, c.Printable) : Reads f (ofFormula f) := by
  induction f with
  | condition c =>
    obtain ⟨us, hus, hspells⟩ := Condition.exists_phrase_text (h c List.mem_cons_self)
    exact ⟨us, .condition hus, hspells⟩
  | join c left right ihl ihr =>
    rw [Formula.leaves, List.forall_mem_append] at h
    exact (ihl h.1).join (ihr h.2) c

/-- The tree of a formula with printable conditions has a text that is read as the formula. -/
theorem read_text_ofFormula (h : ∀ c ∈ f.leaves, c.Printable) :
    read (ofFormula f).text = .ok f := by
  obtain ⟨us, hf, hspells⟩ := (reads_ofFormula h).primary
  exact read_of_spelling (.disjunct (.conjunct hf)) hspells.apart

theorem fold_eq_ofFormula (f : Formula) : Program.fold leaf join f = ofFormula f := by
  induction f with
  | condition c => rfl
  | join c left right ihl ihr => rw [Program.fold, ihl, ihr, ofFormula]

end Tree

theorem Program.tree_steps (f : Formula) : tree f.steps = .ok (Tree.ofFormula f) := by
  rw [tree, result, run_steps, Tree.fold_eq_ofFormula]

/-- A condition that stands in some compiled text. -/
def Condition.Compiled (c : Condition) : Prop :=
  ∃ text e, Expression.compile text = .ok e ∧ c ∈ e.conditions

theorem Condition.Compiled.printable {c : Condition} (h : c.Compiled) : c.Printable := by
  obtain ⟨text, e, he, hc⟩ := h
  exact Expression.printable_conditions he c hc

/-- A condition that is compiled on its own is a special case. -/
theorem Condition.compiled_of_compile {text : String} {c : Condition} (h : compile text = .ok c) :
    c.Compiled := by
  unfold compile at h
  split at h
  · cases h
  · next d he =>
    obtain rfl := Except.ok.inj h
    exact ⟨text, _, he, List.mem_singleton_self d⟩
  · cases h

namespace Expression

/-- An expression, compiled or built from compiled conditions, has a tree, and the text of the tree
is compiled to the very same program. -/
theorem compile_tree_text {e : Expression}
    (he : (∃ text, compile text = .ok e) ∨
      ∃ text p, ofProgram text p = .ok e ∧ ∀ c ∈ p.conditions, c.Compiled) :
    ∃ t e', e.tree = .ok t ∧ compile t.text = .ok e' ∧ e'.program = e.program ∧
      e'.same e = true := by
  have hprintable : ∀ c ∈ e.conditions, c.Printable := by
    rcases he with ⟨text, h⟩ | ⟨text, p, h, hall⟩
    · exact printable_conditions h
    · intro c hc
      rw [conditions, (sound_of_ofProgram h).1] at hc
      exact (hall c hc).printable
  have hmade : (∃ text, compile text = .ok e) ∨ ∃ text p, ofProgram text p = .ok e := by
    refine he.imp_right ?_
    rintro ⟨text, p, h, -⟩
    exact ⟨text, p, h⟩
  obtain ⟨f, hf⟩ := exists_formula hmade
  have hleaves : f.leaves = e.conditions := by
    rw [conditions, ← hf, Program.conditions, Formula.conditions_steps]
  have hread := Tree.read_text_ofFormula (f := f) (hleaves ▸ hprintable)
  refine ⟨Tree.ofFormula f, ⟨(Tree.ofFormula f).text, f.steps⟩, ?_, ?_, hf, ?_⟩
  · rw [tree, ← hf, Program.tree_steps]
  · rw [compile, hread]
    rfl
  · simp [same, hf]

/-- A later operand keeps its parentheses although it has the same connective. -/
theorem compile_tree_text_nested :
    let a : Condition := ⟨.max, .named "cpu", .gt, 90, 60, 1, false⟩
    let b : Condition := ⟨.avg, .named "load", .lte, 0.5, 120, 3, true⟩
    ∃ e t e', ofProgram "nested" [.condition a, .condition b, .condition a, .join .and, .join .and,
        .condition b, .join .or] = .ok e ∧
      e.tree = .ok t ∧ t.text = "((max(cpu) > 90.0 AND (avg(load, 120, deterministic) <= 0.5 " ++
        "times 3 AND max(cpu) > 90.0)) OR avg(load, 120, deterministic) <= 0.5 times 3)" ∧
      compile t.text = .ok e' ∧ e'.program = e.program := by
  intro a b
  have ha : a.Printable := ⟨⟨by decide, nofun, nofun⟩, by decide +kernel⟩
  have hb : b.Printable := ⟨⟨by decide, nofun, nofun⟩, by decide +kernel⟩
  have ha' : a.Compiled := Condition.compiled_of_compile ha.compile
  have hb' : b.Compiled := Condition.compiled_of_compile hb.compile
  let p : Program := [.condition a, .condition b, .condition a, .join .and, .join .and,
    .condition b, .join .or]
  have hp : ∀ c ∈ p.conditions, c.Compiled := by
    intro c hc
    have hc : c ∈ [a, b, a, b] := hc
    simp only [List.mem_cons, List.not_mem_nil, or_false] at hc
    rcases hc with rfl | rfl | rfl | rfl <;> assumption
  have he : ofProgram "nested" p = .ok ⟨"nested", p⟩ := rfl
  obtain ⟨t, e', ht, he', hsame, -⟩ := compile_tree_text (Or.inr ⟨_, p, he, hp⟩)
  obtain rfl : _ = t := Except.ok.inj ht
  exact ⟨_, _, e', he, rfl, by decide +kernel, he', hsame⟩

end Expression

end MetricAlarm
