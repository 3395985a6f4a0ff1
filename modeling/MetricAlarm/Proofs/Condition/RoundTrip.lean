import MetricAlarm.Data.Decode
import MetricAlarm.Proofs.Condition.Text
import MetricAlarm.Proofs.Grammar.Formula

/-!
# Conditions are read back from their texts

Main statement: `compile_text`, a condition that was compiled from any text, as a whole or as a part
of a formula, is compiled from its own text again.
-/

namespace MetricAlarm

open Grammar Token

theorem Expression.printable_conditions {text : String} {e : Expression}
    (h : compile text = .ok e) : ∀ c ∈ e.conditions, c.Printable := by
  obtain ⟨f, hf, rfl⟩ := exists_formula_of_compile h
  obtain ⟨ts, hts, hs⟩ := read_eq_ok_iff.1 hf
  intro c hc
  rw [conditions, Program.conditions, Formula.conditions_steps] at hc
  exact printable_leaves hs (lexemes_of_lex hts) c hc

namespace Condition

theorem Printable.read_text {c : Condition} (h : c.Printable) :
    read c.text = .ok (.condition c) := by
  obtain ⟨us, hus, hspells⟩ := exists_phrase_text h
  exact read_of_spelling (.disjunct (.conjunct (.condition hus))) hspells.apart

theorem Printable.compile_expression {c : Condition} (h : c.Printable) :
    Expression.compile c.text = .ok ⟨c.text, [.condition c]⟩ :=
  Expression.compile_of_read h.read_text

theorem Printable.compile {c : Condition} (h : c.Printable) : compile c.text = .ok c := by
  rw [Condition.compile, h.compile_expression]

theorem Printable.decode {c : Condition} (h : c.Printable) :
    Data.condition (.text c.text) = .ok c := by
  rw [Data.condition, h.compile]
  rfl

/-- Printable conditions with one text are one condition. -/
theorem Printable.text_inj {c d : Condition} (hc : c.Printable) (hd : d.Printable) :
    c.text = d.text ↔ c = d := by
  constructor
  · intro h
    have hcompile := hc.compile
    rw [h, hd.compile] at hcompile
    exact (Except.ok.inj hcompile).symm
  · intro h
    rw [h]

/-- A compiled condition is compiled from its text again, and is read from data that holds its text;
compiled conditions are equal exactly when their texts are. -/
theorem compile_text {text : String} {e : Expression} {c : Condition}
    (h : Expression.compile text = .ok e) (hc : c ∈ e.conditions) :
    compile c.text = .ok c ∧ Data.condition (.text c.text) = .ok c ∧
      ∀ (text' : String) (e' : Expression) (c' : Condition), Expression.compile text' = .ok e' →
        c' ∈ e'.conditions → (c.text = c'.text ↔ c = c') := by
  have hprint := Expression.printable_conditions h c hc
  refine ⟨hprint.compile, hprint.decode, fun text' e' c' h' hc' => ?_⟩
  exact hprint.text_inj (Expression.printable_conditions h' c' hc')

/-- A condition with every part of its text: dimensions of two words and in quotes, a negative zero,
and all that is not written by default. -/
theorem compile_text_full : ∃ (e : Expression) (c : Condition),
    Expression.compile
      "avg(disk\x7bhost=\"db 1\", mount=/var lib\x7d, 30, deterministic) <= -0.0 times 3" = .ok e ∧
    c ∈ e.conditions ∧ c.threshold = -0 ∧ compile c.text = .ok c := by
  let c : Condition := ⟨.avg, ⟨"disk", .ofList [("mount", "/var lib"), ("host", "\"db 1\"")]⟩, .lte,
    -0, 30, 3, true⟩
  have hc : c.Printable := by
    refine ⟨⟨by decide +kernel, ?_, ?_⟩, by decide +kernel⟩
    · exact List.forall_mem_cons.2 ⟨⟨["host"], by decide +kernel⟩,
        List.forall_mem_singleton.2 ⟨["mount"], by decide +kernel⟩⟩
    · exact List.forall_mem_cons.2 ⟨Or.inr ⟨"db 1".toList, by decide +kernel⟩,
        List.forall_mem_singleton.2 (Or.inl ⟨["/var", "lib"], by decide +kernel⟩)⟩
  refine ⟨⟨c.text, [.condition c]⟩, c, ?_, List.mem_cons_self, rfl, ?_⟩
  · refine (congrArg Expression.compile ?_).trans hc.compile_expression
    decide +kernel
  · exact (compile_text hc.compile_expression List.mem_cons_self).1

end Condition

end MetricAlarm
