import MetricAlarm.Proofs.Grammar.Uniform
import MetricAlarm.Proofs.Token.Layout

/-!
# The layout of an expression does not matter

An expression whose tokens are laid out anew compiles to the same program, or fails with the same
error at the place where that token stands now. Main statement: `compile_written`.
-/

namespace MetricAlarm.Expression

open Grammar Token

/-- The same program, or the same error but for the position. -/
inductive Alike : Except ExpressionError Expression → Except ExpressionError Expression → Prop
  | programs (t u : String) (p : Program) : Alike (.ok ⟨t, p⟩) (.ok ⟨u, p⟩)
  | malformed (p q : Nat) (token : String) (fault : SyntaxFault) :
      Alike (.error (.malformedText p token fault)) (.error (.malformedText q token fault))
  | duplicate (name : String) :
      Alike (.error (.duplicateDimension name)) (.error (.duplicateDimension name))

/-- A fault at the same token. -/
theorem alike_faultAt {fault : SyntaxFault} {stop stop' : Nat} {ts us : List Placed}
    (h : tokens ts = tokens us) :
    Alike (.error (faultAt stop fault ts)) (.error (faultAt stop' fault us)) := by
  cases ts with
  | nil =>
    obtain rfl := tokens_eq_nil.1 h.symm
    exact .malformed stop stop' "<EOF>" fault
  | cons t ts =>
    obtain ⟨q, us, rfl, -⟩ := tokens_eq_cons.1 h.symm
    exact .malformed t.position q t.token.text fault

/-- Texts of the same tokens compile alike. -/
theorem alike_of_tokens {text text' : String} {ts ts' : List Placed} (hlex : lex text = .ok ts)
    (hlex' : lex text' = .ok ts') (h : tokens ts = tokens ts') :
    Alike (compile text) (compile text') := by
  rw [compile_of_lex hlex, compile_of_lex hlex']
  by_cases hnil : tokens ts = []
  · obtain rfl := tokens_eq_nil.1 hnil
    obtain rfl := tokens_eq_nil.1 (h ▸ hnil)
    exact .malformed 0 0 "<EOF>" .emptyExpression
  · obtain ⟨o, ho⟩ := exists_outcome_parse hnil
    rw [ho _ ts rfl, ho _ ts' h.symm]
    cases o with
    | takes f n => exact .programs text text' f.steps
    | blames fault n => exact alike_faultAt (by rw [tokens_drop, tokens_drop, h])
    | repeats name => exact .duplicate name

/-- A layout of the tokens of a text is read as the same tokens and compiles alike. -/
theorem compile_written {text last : String} {ts : List Placed} {items : List (String × Token)}
    (hlex : lex text = .ok ts) (hitems : items.map Prod.snd = tokens ts)
    (hlayout : IsLayout items last) :
    (∃ ts', lex (written last items) = .ok ts' ∧ tokens ts' = tokens ts) ∧
      Alike (compile text) (compile (written last items)) := by
  obtain ⟨ts', hlex', htokens⟩ := lex_written hlex hitems hlayout
  exact ⟨⟨ts', hlex', htokens⟩, alike_of_tokens hlex hlex' htokens.symm⟩

/-- Blanks of any kind, with two words and a split sign that must stay apart. -/
theorem compile_written_anew :
    (∃ ts, lex "max( cpu)<\u2003= 90\u3000times\n3 " = .ok ts ∧
        tokens ts = [.word "max", .leftParen, .word "cpu", .rightParen, .less, .equals, .word "90",
          .word "times", .word "3"]) ∧
      Alike (compile "max(cpu) < =90 times 3")
        (compile "max( cpu)<\u2003= 90\u3000times\n3 ") := by
  have hlex : lex "max(cpu) < =90 times 3" = .ok [⟨.word "max", 0⟩, ⟨.leftParen, 3⟩,
      ⟨.word "cpu", 4⟩, ⟨.rightParen, 7⟩, ⟨.less, 9⟩, ⟨.equals, 11⟩, ⟨.word "90", 12⟩,
      ⟨.word "times", 15⟩, ⟨.word "3", 21⟩] := by decide +kernel
  have hlayout : IsLayout [("", .word "max"), ("", .leftParen), (" ", .word "cpu"),
      ("", .rightParen), ("", .less), ("\u2003", .equals), (" ", .word "90"),
      ("\u3000", .word "times"), ("\n", .word "3")] " " := by
    refine ⟨List.all_eq_true.1 (by decide), by decide, ?_⟩
    simp only [List.isChain_cons_cons]
    refine ⟨?_, ?_, ?_, ?_, fun _ => by decide, ?_, fun _ => by decide, fun _ => by decide,
      .singleton _⟩
    all_goals rintro ⟨⟩
  exact compile_written hlex rfl hlayout

end MetricAlarm.Expression
