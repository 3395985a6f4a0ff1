import MetricAlarm.Proofs.Grammar.Uniform
import MetricAlarm.Proofs.Token.Lossless

/-!
# Errors point at the text

The error of a text that does not compile names what stands at its position: a token of the text,
or what could not be read as one. Only behind the last token there is nothing to name. Main
statement: `blame_of_compile`.
-/

namespace MetricAlarm.Expression

open Grammar Token

variable {text token : String} {position : Nat} {fault : SyntaxFault}

/-- A token of a text begins at its position. -/
theorem token_begins {ts : List Placed} {t : Placed} (hlex : lex text = .ok ts) (ht : t ∈ ts) :
    t.token.text.toList <+: text.toList.drop t.position := by
  have hslice := (lex_eq_ok_iff.1 hlex).lossless.slice t ht
  rw [← hslice]
  exact List.take_prefix _ _

/-- The error of a text names the end, where there is nothing to name, or else what stands at its
position: a whole token, or a lone sign or open quotation that the text is refused for. -/
theorem blame_of_compile (h : compile text = .error (.malformedText position token fault)) :
    token = "<EOF>" ∧ (Text.allBlank text = true ∧ position = 0 ∨
        Text.allBlank text = false ∧ position = text.length) ∨
      token.toList <+: text.toList.drop position ∧
        ((∃ ts t, lex text = .ok ts ∧ ⟨t, position⟩ ∈ ts ∧ t.text = token) ∨
          ∃ f, FirstFault text.toList position f ∧ Refused (text.toList.drop position) f ∧
            token = String.ofList f.token ∧ fault = f.fault) := by
  rcases compile_eq_error h with hlex | ⟨ts, hlex, hparse⟩
  · obtain ⟨n, f, hf, he⟩ := lex_eq_error_iff.1 hlex
    obtain ⟨rfl, rfl, rfl⟩ := ExpressionError.malformedText.inj he
    refine .inr ⟨?_, .inr ⟨f, hf, hf.refused, rfl, rfl⟩⟩
    rw [String.toList_ofList]
    exact hf.refused.begins
  · rcases parse_eq_error hparse with ⟨rfl, he⟩ | ⟨hne, fault', n, he⟩ | ⟨name, he⟩
    · obtain ⟨rfl, rfl, rfl⟩ := ExpressionError.malformedText.inj he
      exact .inl ⟨rfl, .inl ⟨lex_eq_nil_iff.1 hlex, rfl⟩⟩
    · cases hrest : ts.drop n with
      | nil =>
        rw [hrest] at he
        obtain ⟨rfl, rfl, rfl⟩ := ExpressionError.malformedText.inj he
        refine .inl ⟨rfl, .inr ⟨?_, rfl⟩⟩
        rw [Bool.eq_false_iff]
        intro hblank
        exact hne (Except.ok.inj (hlex.symm.trans (lex_eq_nil_iff.2 hblank)))
      | cons t rest =>
        rw [hrest] at he
        obtain ⟨rfl, rfl, rfl⟩ := ExpressionError.malformedText.inj he
        have ht : t ∈ ts := List.mem_of_mem_drop (hrest ▸ List.mem_cons_self)
        exact .inr ⟨token_begins hlex ht, .inl ⟨ts, t.token, hlex, ht, rfl⟩⟩
    · cases he

/-- Positions count characters, and a parenthesis is no comparator. -/
theorem blame_of_compile_parenthesis :
    compile "公\t) > 1" = .error (.malformedText 2 ")" .comparator) ∧
      ")".toList <+: "公\t) > 1".toList.drop 2 := by
  have hlex : lex "公\t) > 1" =
      .ok [⟨.word "公", 0⟩, ⟨.rightParen, 2⟩, ⟨.greater, 4⟩, ⟨.word "1", 6⟩] := by decide +kernel
  have hcondition : condition "公\t) > 1".length
      [⟨.word "公", 0⟩, ⟨.rightParen, 2⟩, ⟨.greater, 4⟩, ⟨.word "1", 6⟩] =
      .error (.malformedText 2 ")" .comparator) := rfl
  have hfirst : NotFirst (· = .leftParen)
      [⟨.word "公", 0⟩, ⟨.rightParen, 2⟩, ⟨.greater, 4⟩, ⟨.word "1", 6⟩] := notFirst_cons.2 (by decide)
  have hcompile : compile "公\t) > 1" = .error (.malformedText 2 ")" .comparator) := by
    rw [compile_of_lex hlex, parse_eq (List.cons_ne_nil _ _), formula_disjunction,
      formula_conjunction, formula_condition hfirst, hcondition]
    rfl
  rcases blame_of_compile hcompile with ⟨heof, -⟩ | ⟨hbegins, -⟩
  · exact absurd heof (by decide)
  · exact ⟨hcompile, hbegins⟩

end MetricAlarm.Expression
