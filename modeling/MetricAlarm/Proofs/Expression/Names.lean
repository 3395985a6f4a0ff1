import MetricAlarm.Proofs.Condition.Dimensions
import MetricAlarm.Proofs.Condition.RoundTrip

/-!
# What compiled conditions are made of

Names and values of a compiled condition are words or quotations, and its dimensions are those
written between its braces. Main statement: `conditions_of_compile`.
-/

namespace MetricAlarm

open Grammar Token

variable {ts us : List Token} {s : String}

/-! ## The conditions of an expression -/

/-- The tokens of a formula with its conditions from left to right: between those tokens that make
up a condition there are parentheses and connectives only. -/
inductive Parts (r : List Token → Condition → Prop) : List Token → List Condition → Prop
  | nil : Parts r [] []
  | glue {t : Token} {ts : List Token} {cs : List Condition} :
      t = .leftParen ∨ t = .rightParen ∨ (∃ c, Junction t c) → Parts r ts cs → Parts r (t :: ts) cs
  | condition {us ts : List Token} {c : Condition} {cs : List Condition} :
      r us c → Parts r ts cs → Parts r (us ++ ts) (c :: cs)

theorem Parts.append {r : List Token → Condition → Prop} {cs ds : List Condition}
    (h : Parts r ts cs) (h' : Parts r us ds) : Parts r (ts ++ us) (cs ++ ds) := by
  induction h with
  | nil => exact h'
  | glue ht _ ih => exact .glue ht ih
  | condition hc _ ih =>
    rw [List.append_assoc]
    exact .condition hc ih

theorem Parts.exists_of_mem {r : List Token → Condition → Prop} {cs : List Condition}
    {c : Condition} (h : Parts r ts cs) (hc : c ∈ cs) : ∃ us, us <:+: ts ∧ r us c := by
  induction h with
  | nil => cases hc
  | @glue t ts cs _ _ ih =>
    obtain ⟨us, hus, hr⟩ := ih hc
    exact ⟨us, List.infix_cons hus, hr⟩
  | @condition us ts d cs hr _ ih =>
    rcases List.mem_cons.1 hc with rfl | hc
    · exact ⟨us, (List.prefix_append us ts).isInfix, hr⟩
    · obtain ⟨vs, hvs, hr⟩ := ih hc
      exact ⟨vs, hvs.trans (List.suffix_append us ts).isInfix, hr⟩

/-- A condition with the tokens it is written with. -/
structure Written (us : List Token) (c : Condition) : Prop where
  phrase : ConditionPhrase us c
  dimensions : Lists (inBraces us) c.metric.dimensions

theorem parts_leaves {level : Level} {f : Formula} (h : FormulaPhrase level ts f) :
    Parts Written ts f.leaves := by
  induction h with
  | @condition ts c hc =>
    have hpart : Parts Written (ts ++ []) [c] := .condition ⟨hc, (holds_condition hc).lists⟩ .nil
    rwa [List.append_nil] at hpart
  | parentheses _ ih =>
    have hclose : Parts Written [.rightParen] [] := .glue (.inr (.inl rfl)) .nil
    have hinner := ih.append hclose
    rw [List.append_nil] at hinner
    exact .glue (.inl rfl) hinner
  | conjunct _ ih | disjunct _ ih => exact ih
  | and _ ht _ ihf ihg | or _ ht _ ihf ihg => exact ihf.append (.glue (.inr (.inr ⟨_, ht⟩)) ihg)

theorem head?_of_words (h : IsWords s) : s.toList.head? ≠ some '"' := by
  obtain ⟨ws, hne, hws, rfl⟩ := h
  obtain ⟨w, ws, rfl⟩ := List.exists_cons_of_ne_nil hne
  have hw : IsName w := hws w List.mem_cons_self
  obtain ⟨c, cs, hcs⟩ := List.exists_cons_of_ne_nil hw.nonempty
  have hc : isWordChar c = true := hw.chars c (hcs ▸ List.mem_cons_self)
  have hhead : (joinWords (w :: ws)).toList.head? = some c := by
    cases ws with
    | nil => rw [joinWords, String.intercalate_singleton, hcs]; rfl
    | cons v ws =>
      rw [joinWords, String.intercalate_cons_cons, String.toList_append, String.toList_append, hcs]
      rfl
  rw [hhead]
  rintro ⟨⟩
  exact absurd hc (by decide)

theorem head?_of_quotation (h : IsQuotation s) : s.toList.head? = some '"' := by
  obtain ⟨cs, -, hs⟩ := h
  rw [hs]
  rfl

/-- Words and quotations are told apart by their first character. -/
theorem words_or_quotation (h : IsWords s ∨ IsQuotation s) :
    (s.toList.head? ≠ some '"' → IsWords s) ∧ (s.toList.head? = some '"' → IsQuotation s) := by
  rcases h with h | h
  · exact ⟨fun _ => h, fun hq => absurd hq (head?_of_words h)⟩
  · exact ⟨fun hq => absurd (head?_of_quotation h) hq, fun _ => h⟩

/-- Names and values of a compiled condition hold what may stand in words and quotations, its
threshold is finite, and its dimensions are those between the braces it is written with. -/
theorem Expression.conditions_of_compile {text : String} {e : Expression}
    (h : compile text = .ok e) :
    (∀ c ∈ e.conditions, IsName c.metric.name ∧ c.threshold.isFinite = true ∧
      ∀ d ∈ c.metric.dimensions.entries, IsWords d.1 ∧
        (d.2.toList.head? ≠ some '"' → IsWords d.2) ∧
        (d.2.toList.head? = some '"' → IsQuotation d.2)) ∧
    ∃ ts, lex text = .ok ts ∧ Parts Written (tokens ts) e.conditions := by
  constructor
  · intro c hc
    obtain ⟨hm, hfinite⟩ := printable_conditions h c hc
    exact ⟨hm.name, hfinite, fun d hd => ⟨hm.keys d hd, words_or_quotation (hm.values d hd)⟩⟩
  · obtain ⟨f, hf, rfl⟩ := exists_formula_of_compile h
    obtain ⟨ts, hlex, hs⟩ := read_eq_ok_iff.1 hf
    refine ⟨ts, hlex, ?_⟩
    rw [conditions, Program.conditions, Formula.conditions_steps]
    exact parts_leaves hs

/-- A quoted value may hold what ends a word, and takes no part in counting the dimensions. -/
theorem Expression.conditions_of_compile_quoted : ∃ (e : Expression) (c : Condition),
    compile "max(disk\x7bhost=\"a\x7d=b\", mount=/var lib\x7d) > 90.0" = .ok e ∧
    e.conditions = [c] ∧
    c.metric.dimensions.entries = [("host", "\"a\x7d=b\""), ("mount", "/var lib")] ∧
    (∀ d ∈ c.metric.dimensions.entries, d.2.toList.head? = some '"' → IsQuotation d.2) ∧
    ∃ us, Written us c ∧ (inBraces us).count .equals = 2 := by
  let c : Condition := ⟨.max, ⟨"disk", .ofList [("host", "\"a\x7d=b\""), ("mount", "/var lib")]⟩,
    .gt, 90, 60, 1, false⟩
  have hc : c.Printable := by
    refine ⟨⟨by decide +kernel, ?_, ?_⟩, by decide +kernel⟩
    · exact List.forall_mem_cons.2 ⟨⟨["host"], by decide +kernel⟩,
        List.forall_mem_singleton.2 ⟨["mount"], by decide +kernel⟩⟩
    · exact List.forall_mem_cons.2 ⟨Or.inr ⟨"a\x7d=b".toList, by decide +kernel⟩,
        List.forall_mem_singleton.2 (Or.inl ⟨["/var", "lib"], by decide +kernel⟩)⟩
  have htext : c.text = "max(disk\x7bhost=\"a\x7d=b\", mount=/var lib\x7d) > 90.0" := by
    decide +kernel
  obtain ⟨hnames, ts, -, hparts⟩ := conditions_of_compile hc.compile_expression
  obtain ⟨us, -, hus⟩ := hparts.exists_of_mem List.mem_cons_self
  refine ⟨_, c, (congrArg compile htext.symm).trans hc.compile_expression, rfl, by decide +kernel,
    fun d hd => ((hnames c List.mem_cons_self).2.2 d hd).2.2, us, hus, ?_⟩
  rw [hus.dimensions.count]
  decide +kernel

end MetricAlarm
