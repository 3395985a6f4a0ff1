import MetricAlarm.Proofs.Condition.RoundTrip
import MetricAlarm.Proofs.Formula.Program

/-!
# Compilation is compositional

Texts that compile can be put in parentheses and joined by a connective, whatever they are, and the
program of the whole is put together from the programs of the parts. Main statements:
`Wrapped.read`, `read_compound` and `compile_compound`.
-/

namespace MetricAlarm

open Grammar Token

/-! ## Spellings -/

/-- A text with redundant parentheses and blanks around it. -/
inductive Wrapped (a : String) : String → Prop
  | refl : Wrapped a a
  | blanks {t before after : String} : Wrapped a t → Text.allBlank before = true →
      Text.allBlank after = true → Wrapped a (before ++ t ++ after)
  | parentheses {t : String} : Wrapped a t → Wrapped a ("(" ++ t ++ ")")

/-- The sign of a connective. -/
def Connective.sign : Connective → String
  | .and => "&&"
  | .or => "||"

/-- A connective is written as its sign, or as its name in any case. -/
def Connective.IsSpelling (c : Connective) (w : String) : Prop :=
  w = c.sign ∨ Text.sameIgnoringCase w c.name = true

/-- Two texts in parentheses with a connective between them, and blanks around it. -/
def compound (t before connective after u : String) : String :=
  "(" ++ t ++ ")" ++ before ++ connective ++ after ++ "(" ++ u ++ ")"

/-! ## Redundant parentheses -/

variable {a b t u : String} {f g : Formula}

/-- Redundant parentheses and blanks do not change what a text is read as. -/
theorem Wrapped.read (h : Wrapped a t) (ha : read a = .ok f) : read t = .ok f := by
  induction h with
  | refl => exact ha
  | blanks _ hbefore hafter ih =>
    obtain ⟨us, hf, hspells⟩ := exists_spelling_of_read ih
    have hblanks := hspells.blanks (mem_allBlank hbefore) (mem_allBlank hafter)
    rw [← String.toList_append, ← String.toList_append] at hblanks
    exact read_of_spelling hf hblanks
  | parentheses _ ih =>
    obtain ⟨us, hf, hspells⟩ := exists_spelling_of_read ih
    refine read_of_spelling (.disjunct (.conjunct (.parentheses hf))) fun rest vs _ hrest => ?_
    simpa using hspells.parentheses hrest

/-! ## Texts of a connective -/

theorem isWordChar_of_toLower {c : Char} (h : isWordChar c.toLower = true) :
    isWordChar c = true := by
  by_cases hu : c.isUpper = true
  · have hrange : 65 ≤ c.toNat ∧ c.toNat ≤ 90 := by
      simpa [Char.isUpper, UInt32.le_iff_toNat_le] using hu
    have hall : ∀ n < 91, 65 ≤ n → isWordChar (Char.ofNat n) = true := by decide
    rw [← Char.ofNat_toNat c]
    exact hall _ (by omega) hrange.1
  · have hsame : c.toLower = c := by
      refine dif_neg fun hbounds => hu ?_
      simpa [Char.isUpper] using hbounds
    rwa [hsame] at h

theorem isName_of_sameIgnoringCase {v w : String} (h : Text.sameIgnoringCase w v = true)
    (hv : IsName v) (hlower : ∀ c ∈ v.toList, isWordChar c.toLower = true) : IsName w := by
  rw [sameIgnoringCase_iff] at h
  constructor
  · intro hnil
    rw [hnil] at h
    exact hv.nonempty (List.map_eq_nil_iff.1 h.symm)
  · intro c hc
    have hmem : c.toLower ∈ v.toList.map Char.toLower := h ▸ List.mem_map_of_mem hc
    obtain ⟨d, hd, heq⟩ := List.mem_map.1 hmem
    exact isWordChar_of_toLower (heq ▸ hlower d hd)

/-- A spelling of a connective is one token that stands for it. -/
theorem Connective.IsSpelling.spells {c : Connective} {w : String} (h : c.IsSpelling w) :
    ∃ t, Junction t c ∧ Spells w.toList [t] := by
  rcases h with rfl | h
  · cases c with
    | and =>
      refine ⟨.and, .and, fun rest vs _ hrest => ?_⟩
      change Lexes ('&' :: '&' :: rest) (.and :: vs)
      exact lexes_scan (by decide) rfl hrest
    | or =>
      refine ⟨.or, .or, fun rest vs _ hrest => ?_⟩
      change Lexes ('|' :: '|' :: rest) (.or :: vs)
      exact lexes_scan (by decide) rfl hrest
  · refine ⟨.word w, .word h, spells_word ?_⟩
    cases c with
    | and => exact isName_of_sameIgnoringCase h (by decide) (List.all_eq_true.1 (by decide))
    | or => exact isName_of_sameIgnoringCase h (by decide) (List.all_eq_true.1 (by decide))

/-- A compound is read as the formula that joins those of its parts. -/
theorem read_compound {c : Connective} {w before after : String} (ht : read t = .ok f)
    (hu : read u = .ok g) (hw : c.IsSpelling w) (hbefore : Text.allBlank before = true)
    (hafter : Text.allBlank after = true) :
    read (compound t before w after u) = .ok (.join c f g) := by
  obtain ⟨us, hf, hus⟩ := exists_spelling_of_read ht
  obtain ⟨vs, hg, hvs⟩ := exists_spelling_of_read hu
  obtain ⟨j, hj, hspells⟩ := hw.spells
  have hphrase : FormulaPhrase (level c) _ (.join c f g) :=
    .next (.first c (.parentheses hf)) hj (.parentheses hg)
  refine read_of_spelling hphrase.whole fun rest ws _ hrest => ?_
  -- From the end of the text to its front.
  have hright := lexes_blanks (mem_allBlank hafter) (hvs.parentheses hrest)
  have hstops : Stops (after.toList ++ '(' :: (u.toList ++ ')' :: rest)) :=
    (separates_blanks (mem_allBlank hafter) (separates_cons (by decide) (by decide))).stops
  have hjunction := lexes_blanks (mem_allBlank hbefore) (hspells hstops hright)
  simpa [compound] using hus.parentheses hjunction

/-! ## Values -/

/-- The value of a formula whose conditions may fail to have one; the left operand comes first. -/
def Formula.value {α : Type} (leaf : Condition → Except ExpressionError α)
    (join : Connective → α → α → α) : Formula → Except ExpressionError α
  | .condition c => leaf c
  | .join c left right => do
    let x ← left.value leaf join
    let y ← right.value leaf join
    return join c x y

namespace Program

variable {α : Type} (leaf : Condition → Except ExpressionError α) (join : Connective → α → α → α)

/-- The program of a formula puts its value on top of whatever stack it finds. -/
theorem run_steps_value (f : Formula) (stack : List α) :
    run leaf join stack f.steps = (f.value leaf join).map (· :: stack) := by
  induction f generalizing stack with
  | condition c =>
    simp only [Formula.steps, Formula.value, run, step]
    cases leaf c <;> rfl
  | join c left right ihl ihr =>
    simp only [Formula.steps, Formula.value, run_append, ihl]
    cases left.value leaf join with
    | error e => rfl
    | ok x =>
      simp only [Except.map, ihr]
      cases right.value leaf join <;> rfl

theorem result_steps (f : Formula) : result leaf join f.steps = f.value leaf join := by
  rw [result, run_steps_value]
  cases f.value leaf join <;> rfl

/-- What an evaluation takes for a condition: its truth value, or the error that it has none. -/
def truth (values : Condition → Option Bool) (c : Condition) : Except ExpressionError Bool :=
  match values c with
  | some b => .ok b
  | none => .error (.missingValue c)

theorem evaluate_steps_value (values : Condition → Option Bool) (f : Formula) :
    evaluate values f.steps = f.value (truth values) Connective.apply :=
  result_steps (truth values) Connective.apply f

end Program

/-- A formula has a value when all its conditions have one. -/
theorem Formula.exists_value {α : Type} {leaf : Condition → Except ExpressionError α}
    (join : Connective → α → α → α) {f : Formula} (h : ∀ c ∈ f.leaves, ∃ x, leaf c = .ok x) :
    ∃ x, f.value leaf join = .ok x := by
  induction f with
  | condition c => exact h c List.mem_cons_self
  | join c left right ihl ihr =>
    rw [leaves, List.forall_mem_append] at h
    obtain ⟨x, hx⟩ := ihl h.1
    obtain ⟨y, hy⟩ := ihr h.2
    exact ⟨join c x y, by rw [value, hx, hy]; rfl⟩

namespace Expression

/-- What compiles on its own compiles to the same program with redundant parentheses and blanks, and
two such texts in parentheses with a connective between them to their programs one after the other
and the connective. The whole has the value of the connective on those of its parts. -/
theorem compile_compound {a b : String} {ea eb : Expression} (ha : compile a = .ok ea)
    (hb : compile b = .ok eb) {t u : String} (ht : Wrapped a t) (hu : Wrapped b u)
    {c : Connective} {w before after : String} (hw : c.IsSpelling w)
    (hbefore : Text.allBlank before = true) (hafter : Text.allBlank after = true) {whole : String}
    (hwhole : Wrapped (compound t before w after u) whole) :
    compile t = .ok ⟨t, ea.program⟩ ∧
    ∃ e, compile whole = .ok e ∧ e.program = ea.program ++ eb.program ++ [.join c] ∧
      ∀ values : Condition → Option Bool,
        e.evaluate values = (do
          let x ← ea.evaluate values
          let y ← eb.evaluate values
          return c.apply x y) ∧
        ((∀ k ∈ ea.conditions ++ eb.conditions, (values k).isSome = true) →
          ∃ x y, ea.evaluate values = .ok x ∧ eb.evaluate values = .ok y ∧
            e.evaluate values = .ok (c.apply x y)) := by
  obtain ⟨f, hf, rfl⟩ := exists_formula_of_compile ha
  obtain ⟨g, hg, rfl⟩ := exists_formula_of_compile hb
  have hread := hwhole.read (read_compound (ht.read hf) (hu.read hg) hw hbefore hafter)
  refine ⟨compile_of_read (ht.read hf), _, compile_of_read hread, rfl, fun values => ?_⟩
  have hvalue (text : String) (p : Formula) :
      evaluate ⟨text, p.steps⟩ values = p.value (Program.truth values) Connective.apply :=
    Program.evaluate_steps_value values p
  simp only [hvalue]
  refine ⟨rfl, fun hcovers => ?_⟩
  have hleaf : ∀ k ∈ f.leaves ++ g.leaves, ∃ x, Program.truth values k = .ok x := by
    intro k hk
    simp only [conditions, Program.conditions, Formula.conditions_steps] at hcovers
    obtain ⟨x, hx⟩ := Option.isSome_iff_exists.1 (hcovers k hk)
    exact ⟨x, by simp only [Program.truth, hx]⟩
  rw [List.forall_mem_append] at hleaf
  obtain ⟨x, hx⟩ := Formula.exists_value Connective.apply hleaf.1
  obtain ⟨y, hy⟩ := Formula.exists_value Connective.apply hleaf.2
  exact ⟨x, y, hx, hy, by rw [Formula.value, hx, hy]; rfl⟩

/-- A compound within a compound, with redundant parentheses, and with blanks in some places and
none in others. -/
theorem compile_compound_nested :
    let p : Condition := ⟨.max, .named "cpu", .gt, 90, 60, 3, false⟩
    let q : Condition := ⟨.avg, .named "load", .lte, 0.5, 120, 1, true⟩
    let values : Condition → Option Bool := fun k =>
      if k = p then some true else if k = q then some false else none
    ∃ e, compile ("(((max(cpu) > 90.0 times 3) ||(avg(load, 120, deterministic) <= 0.5) ))aNd\t" ++
        "(avg(load, 120, deterministic) <= 0.5)\n") = .ok e ∧
      e.program = [.condition p, .condition q, .join .or, .condition q, .join .and] ∧
      e.evaluate values = .ok false := by
  intro p q values
  have hp : p.Printable := ⟨⟨by decide, nofun, nofun⟩, by decide +kernel⟩
  have hq : q.Printable := ⟨⟨by decide, nofun, nofun⟩, by decide +kernel⟩
  have hnone : Text.allBlank "" = true := by decide
  have hblank : Text.allBlank " " = true := by decide
  obtain ⟨-, e, he, hprogram, hvalues⟩ := compile_compound hp.compile_expression
    hq.compile_expression .refl .refl (show Connective.IsSpelling .or "||" from .inl rfl) hblank
    hnone .refl
  obtain ⟨-, e', he', hprogram', hvalues'⟩ := compile_compound he hq.compile_expression
    (.parentheses (.blanks .refl hnone hblank)) .refl
    (show Connective.IsSpelling .and "aNd" from .inr (by decide)) hnone
    (show Text.allBlank "\t" = true by decide)
    (.blanks .refl hnone (show Text.allBlank "\n" = true by decide))
  refine ⟨e', (congrArg compile (by decide +kernel)).trans he', ?_, ?_⟩
  · rw [hprogram', hprogram]
    rfl
  · rw [(hvalues' values).1, (hvalues values).1]
    decide +kernel

end Expression

end MetricAlarm
