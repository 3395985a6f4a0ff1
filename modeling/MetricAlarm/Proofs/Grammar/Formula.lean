import MetricAlarm.Expression
import MetricAlarm.Proofs.Grammar.Condition
import MetricAlarm.Proofs.Token.Locality

/-!
# Formulas are read as they are phrased

The readers of formulas carry the proof that they use up tokens; `plain` forgets it. The loops
behind a first operand are the same for both connectives (`Chain`). Main statements:
`parse_eq_ok_iff` and `read_eq_ok_iff`: a text is read as a formula exactly when its tokens are a
sentence, and then as what the sentence says.
-/

namespace MetricAlarm.Grammar

/-- What a reader gives, without the proof about the rest. -/
def plain {p : List Placed → Prop} (r : Except ExpressionError (Formula × { rest // p rest })) :
    Except ExpressionError (Formula × List Placed) :=
  r.map fun x => (x.1, x.2.1)

/-- The reader of formulas of a level. -/
def formula (stop : Nat) : Level → Reader Formula
  | .primary => fun ts => plain (primary stop ts)
  | .conjunction => fun ts => plain (conjunction stop ts)
  | .disjunction => fun ts => plain (disjunction stop ts)

def conjuncts (stop : Nat) (f : Formula) : Reader Formula :=
  fun ts => plain (moreConjuncts stop f ts)

def disjuncts (stop : Nat) (f : Formula) : Reader Formula :=
  fun ts => plain (moreDisjuncts stop f ts)

theorem formula_conjunction {stop : Nat} (ts : List Placed) :
    formula stop .conjunction ts =
      formula stop .primary ts >>= fun x => conjuncts stop x.1 x.2 := by
  simp only [formula, conjuncts]
  rw [conjunction]
  cases primary stop ts with
  | error e => rfl
  | ok x =>
    obtain ⟨f, rest, h⟩ := x
    simp only [plain, Except.map, bind, Except.bind]
    cases moreConjuncts stop f rest <;> rfl

theorem formula_disjunction {stop : Nat} (ts : List Placed) :
    formula stop .disjunction ts =
      formula stop .conjunction ts >>= fun x => disjuncts stop x.1 x.2 := by
  simp only [formula, disjuncts]
  rw [disjunction]
  cases conjunction stop ts with
  | error e => rfl
  | ok x =>
    obtain ⟨f, rest, h⟩ := x
    simp only [plain, Except.map, bind, Except.bind]
    cases moreDisjuncts stop f rest <;> rfl

theorem formula_parentheses {stop : Nat} (p : Nat) (ts : List Placed) :
    formula stop .primary (⟨.leftParen, p⟩ :: ts) =
      formula stop .disjunction ts >>= fun x =>
        (closing stop x.2).map fun rest => (x.1, rest.1) := by
  simp only [formula]
  rw [primary]
  cases disjunction stop ts with
  | error e => rfl
  | ok x =>
    obtain ⟨f, rest, h⟩ := x
    simp only [plain, Except.map, bind, Except.bind]
    cases closing stop rest <;> rfl

theorem formula_condition {stop : Nat} {ts : List Placed} (h : NotFirst (· = .leftParen) ts) :
    formula stop .primary ts =
      condition stop ts >>= fun x => .ok (.condition x.1, x.2) := by
  have hprimary : primary stop ts = single stop ts := by
    rw [primary]
    intro p us hts
    rw [hts] at h
    exact notFirst_cons.1 h rfl
  simp only [formula, hprimary, single]
  split
  · next e he => rw [he]; rfl
  · next c rest he =>
    exact (congrArg (· >>= fun x => Except.ok (Formula.condition x.1, x.2)) he).symm

/-! ## Chains of operands -/

/-- The reader takes an operand, and `more` goes on behind it as long as the connective does. -/
structure Chain (c : Connective) (operand : Reader Formula) (more : Formula → Reader Formula)
    (reader : Reader Formula) : Prop where
  start (ts : List Placed) : reader ts = operand ts >>= fun x => more x.1 x.2
  nil (f : Formula) : more f [] = .ok (f, [])
  cons (f : Formula) (t : Placed) (ts : List Placed) : more f (t :: ts) =
    if spells c t.token then operand ts >>= fun x => more (.join c f x.1) x.2
    else .ok (f, t :: ts)

theorem chain_conjuncts (stop : Nat) :
    Chain .and (formula stop .primary) (conjuncts stop) (formula stop .conjunction) where
  start := formula_conjunction
  nil f := by rw [conjuncts, moreConjuncts]; rfl
  cons f t ts := by
    simp only [formula, conjuncts]
    rw [moreConjuncts]
    split
    · cases primary stop ts with
      | error e => rfl
      | ok x =>
        obtain ⟨g, rest, h⟩ := x
        simp only [plain, Except.map, bind, Except.bind]
        cases moreConjuncts stop (.join .and f g) rest <;> rfl
    · rfl

theorem chain_disjuncts (stop : Nat) :
    Chain .or (formula stop .conjunction) (disjuncts stop) (formula stop .disjunction) where
  start := formula_disjunction
  nil f := by rw [disjuncts, moreDisjuncts]; rfl
  cons f t ts := by
    simp only [formula, disjuncts]
    rw [moreDisjuncts]
    split
    · cases conjunction stop ts with
      | error e => rfl
      | ok x =>
        obtain ⟨g, rest, h⟩ := x
        simp only [plain, Except.map, bind, Except.bind]
        cases moreDisjuncts stop (.join .or f g) rest <;> rfl
    · rfl

theorem Junction.unique {t : Token} {c d : Connective} (hc : Junction t c) (hd : Junction t d) :
    c = d := by
  cases hc with
  | and => cases hd; rfl
  | or => cases hd; rfl
  | word hc =>
    cases hd with
    | word hd =>
      have h := (sameIgnoringCase_iff.1 hc).symm.trans (sameIgnoringCase_iff.1 hd)
      revert h
      cases c <;> cases d <;> decide

namespace Chain

variable {c : Connective} {operand reader : Reader Formula} {more : Formula → Reader Formula}

theorem stops (h : Chain c operand more reader) (f : Formula) {ts : List Placed}
    (hts : NotFirst (Junction · c) ts) : more f ts = .ok (f, ts) := by
  cases ts with
  | nil => exact h.nil f
  | cons t ts =>
    rw [h.cons, if_neg]
    rw [spells_iff]
    exact notFirst_cons.1 hts

theorem goes_on (h : Chain c operand more reader) (f : Formula) {t : Placed}
    (ht : Junction t.token c) (ts : List Placed) :
    more f (t :: ts) = operand ts >>= fun x => more (.join c f x.1) x.2 := by
  rw [h.cons, if_pos (spells_iff.2 ht)]

variable {phrase whole : List Token → Formula → Prop}

/-- Behind a phrase of the level, a chain takes a longer one. -/
theorem takes_more (h : Chain c operand more reader)
    (hjoin : ∀ {ts us : List Token} {t : Token} {f g : Formula}, whole ts f → Junction t c →
      phrase us g → whole (ts ++ t :: us) (.join c f g))
    {ts vs rest : List Placed} {f g : Formula}
    (hop : ∀ us : List Placed, us.length < ts.length → TakesAt operand phrase us)
    (hf : whole (tokens vs) f) (hm : more f ts = .ok (g, rest)) :
    ∃ us, ts = us ++ rest ∧ whole (tokens (vs ++ us)) g := by
  cases ts with
  | nil =>
    rw [h.nil] at hm
    simp only [Except.ok.injEq, Prod.mk.injEq] at hm
    obtain ⟨rfl, rfl⟩ := hm
    exact ⟨[], rfl, by simpa using hf⟩
  | cons t ts =>
    rw [h.cons] at hm
    split at hm
    · next ht =>
      obtain ⟨⟨b, us⟩, hb, hmore⟩ := bind_eq_ok hm
      obtain ⟨bs, rfl, hbs⟩ := hop ts (Nat.lt_succ_self _) hb
      have hjoined : whole (tokens (vs ++ t :: bs)) (.join c f b) := by
        rw [tokens_append, tokens_cons]
        exact hjoin hf (spells_iff.1 ht) hbs
      have hshort : ∀ ws : List Placed, ws.length < us.length → TakesAt operand phrase ws :=
        fun ws hws => hop ws (by simp only [List.length_cons, List.length_append]; omega)
      obtain ⟨ws, rfl, hws⟩ := h.takes_more hjoin hshort hjoined hmore
      exact ⟨t :: (bs ++ ws), by simp, by simpa using hws⟩
    · simp only [Except.ok.injEq, Prod.mk.injEq] at hm
      obtain ⟨rfl, rfl⟩ := hm
      exact ⟨[], rfl, by simpa using hf⟩
termination_by ts.length

theorem takesAt (h : Chain c operand more reader)
    (hone : ∀ {ts : List Token} {f : Formula}, phrase ts f → whole ts f)
    (hjoin : ∀ {ts us : List Token} {t : Token} {f g : Formula}, whole ts f → Junction t c →
      phrase us g → whole (ts ++ t :: us) (.join c f g))
    {ts : List Placed} (hfirst : TakesAt operand phrase ts)
    (hop : ∀ us : List Placed, us.length < ts.length → TakesAt operand phrase us) :
    TakesAt reader whole ts := by
  intro rest g hg
  rw [h.start] at hg
  obtain ⟨⟨f, us⟩, hf, hmore⟩ := bind_eq_ok hg
  obtain ⟨fs, rfl, hfs⟩ := hfirst hf
  have hshort : ∀ ws : List Placed, ws.length < us.length → TakesAt operand phrase ws :=
    fun ws hws => hop ws (by rw [List.length_append]; omega)
  obtain ⟨gs, rfl, hgs⟩ := h.takes_more hjoin hshort (hone hfs) hmore
  exact ⟨fs ++ gs, by simp, hgs⟩

end Chain

/-! ## Soundness -/

theorem closing_eq_ok {stop : Nat} {ts : List Placed} {rest : Shorter ts}
    (h : closing stop ts = .ok rest) : ∃ p, ts = ⟨.rightParen, p⟩ :: rest.1 := by
  unfold closing at h
  split at h
  · next p us =>
    obtain rfl := Except.ok.inj h
    exact ⟨p, rfl⟩
  · cases h

theorem takes_primary {stop : Nat} {ts : List Placed}
    (h : ∀ us : List Placed, us.length < ts.length →
      TakesAt (formula stop .disjunction) (FormulaPhrase .disjunction) us) :
    TakesAt (formula stop .primary) (FormulaPhrase .primary) ts := by
  intro rest f hf
  by_cases hparen : NotFirst (· = .leftParen) ts
  · rw [formula_condition hparen] at hf
    obtain ⟨⟨c, us⟩, hc, hf⟩ := bind_eq_ok hf
    simp only [Except.ok.injEq, Prod.mk.injEq] at hf
    obtain ⟨rfl, rfl⟩ := hf
    obtain ⟨cs, rfl, hcs⟩ := takes_condition hc
    exact ⟨cs, rfl, .condition hcs⟩
  · obtain ⟨p, ts', rfl⟩ : ∃ p ts', ts = ⟨.leftParen, p⟩ :: ts' := by
      cases ts with
      | nil => exact absurd (by simp [NotFirst]) hparen
      | cons t ts =>
        obtain ⟨t, p⟩ := t
        obtain rfl : t = .leftParen := by simpa [NotFirst] using hparen
        exact ⟨p, ts, rfl⟩
    rw [formula_parentheses] at hf
    obtain ⟨⟨g, us⟩, hg, hf⟩ := bind_eq_ok hf
    obtain ⟨r, hclose, hgr⟩ := map_eq_ok hf
    obtain ⟨rfl, rfl⟩ := Prod.mk.inj hgr
    obtain ⟨q, hus⟩ := closing_eq_ok hclose
    obtain ⟨gs, rfl, hgs⟩ := h ts' (Nat.lt_succ_self _) hg
    refine ⟨⟨.leftParen, p⟩ :: (gs ++ [⟨.rightParen, q⟩]), by simpa using hus, ?_⟩
    rw [tokens_cons, tokens_append]
    exact .parentheses hgs

/-- The levels call each other on the same tokens; on fewer of them any level may be called. -/
theorem takes_formula {stop : Nat} (level : Level) :
    Takes (formula stop level) (FormulaPhrase level) := by
  intro ts
  induction hn : ts.length using Nat.strongRecOn generalizing level ts with
  | ind n ih =>
    have hshort : ∀ (level : Level) (us : List Placed), us.length < ts.length →
        TakesAt (formula stop level) (FormulaPhrase level) us :=
      fun level us hus => ih us.length (hn ▸ hus) level rfl
    have hprimary : TakesAt (formula stop .primary) (FormulaPhrase .primary) ts :=
      takes_primary (hshort .disjunction)
    have hconjunction : TakesAt (formula stop .conjunction) (FormulaPhrase .conjunction) ts :=
      (chain_conjuncts stop).takesAt .conjunct .and hprimary (hshort .primary)
    cases level with
    | primary => exact hprimary
    | conjunction => exact hconjunction
    | disjunction =>
      exact (chain_disjuncts stop).takesAt .disjunct .or hconjunction (hshort .conjunction)

/-! ## Completeness -/

theorem condition_leftParen (stop p : Nat) (ts : List Placed) :
    ∃ e, condition stop (⟨.leftParen, p⟩ :: ts) = .error e := ⟨_, rfl⟩

/-- No condition starts with a parenthesis. -/
theorem notFirst_leftParen {stop : Nat} {ts rest : List Placed} {c : Condition}
    (h : condition stop ts = .ok (c, rest)) : NotFirst (· = .leftParen) ts := by
  rintro ⟨t, p⟩ ht rfl
  obtain ⟨us, rfl⟩ := List.head?_eq_some_iff.1 ht
  obtain ⟨e, he⟩ := condition_leftParen stop p us
  rw [he] at h
  cases h

/-- What the reader of a level does with a phrase of the level and the rest: it goes on as it does
behind a first operand. -/
def Goes (stop : Nat) (f : Formula) (ts rest : List Placed) : Level → Prop
  | .primary => formula stop .primary (ts ++ rest) = .ok (f, rest)
  | .conjunction => formula stop .conjunction (ts ++ rest) = conjuncts stop f rest
  | .disjunction => NotFirst (Junction · .and) rest →
      formula stop .disjunction (ts ++ rest) = disjuncts stop f rest

theorem Junction.ends {t : Token} {c : Connective} (h : Junction t c) (p : Nat)
    (ts : List Placed) : Ends (⟨t, p⟩ :: ts) := by
  intro t' ht'
  obtain rfl := Option.some.inj ht'
  exact Or.inr ⟨c, h⟩

theorem Junction.notFirst {t : Token} {c d : Connective} (h : Junction t c) (hcd : c ≠ d) (p : Nat)
    (ts : List Placed) : NotFirst (Junction · d) (⟨t, p⟩ :: ts) :=
  notFirst_cons.2 fun h' => hcd (h.unique h')

theorem goes {stop : Nat} {level : Level} {us : List Token} {f : Formula}
    (h : FormulaPhrase level us f) {ts rest : List Placed} (hts : tokens ts = us)
    (hr : Ends rest) : Goes stop f ts rest level := by
  induction h generalizing ts rest with
  | condition hc =>
    subst hts
    have hread : condition stop (ts ++ rest) = _ := finds_condition hc hr
    show formula stop .primary (ts ++ rest) = _
    rw [formula_condition (notFirst_leftParen hread), hread]
    rfl
  | @parentheses us f _ ih =>
    obtain ⟨p, ts₁, rfl, h₁⟩ := tokens_eq_cons.1 hts
    obtain ⟨us, ts₂, rfl, hus, h₂⟩ := tokens_eq_append.1 h₁
    obtain ⟨q, ts₃, rfl, h₃⟩ := tokens_eq_cons.1 h₂
    obtain rfl := tokens_eq_nil.1 h₃
    have hin : formula stop .disjunction (us ++ ⟨.rightParen, q⟩ :: rest) = _ :=
      ih hus (by intro t ht; obtain rfl := Option.some.inj ht; exact Or.inl rfl)
        (notFirst_cons.2 nofun)
    have hstop : disjuncts stop f (⟨.rightParen, q⟩ :: rest) = _ :=
      (chain_disjuncts stop).stops f (notFirst_cons.2 nofun)
    show formula stop .primary _ = _
    simp only [List.cons_append, List.append_assoc, List.nil_append, formula_parentheses, hin,
      hstop]
    rfl
  | @conjunct us f _ ih =>
    show formula stop .conjunction (ts ++ rest) = _
    rw [formula_conjunction, ih hts hr]
    rfl
  | @and us vs t f g _ ht _ ihf ihg =>
    obtain ⟨us, ts₁, rfl, hus, h₁⟩ := tokens_eq_append.1 hts
    obtain ⟨p, vs, rfl, hvs⟩ := tokens_eq_cons.1 h₁
    show formula stop .conjunction _ = _
    rw [List.append_assoc, List.cons_append, ihf hus (ht.ends p _),
      (chain_conjuncts stop).goes_on f ht, ihg hvs hr]
    rfl
  | @disjunct us f _ ih =>
    intro hand
    rw [formula_disjunction, ih hts hr, (chain_conjuncts stop).stops f hand]
    rfl
  | @or us vs t f g _ ht _ ihf ihg =>
    intro hand
    obtain ⟨us, ts₁, rfl, hus, h₁⟩ := tokens_eq_append.1 hts
    obtain ⟨p, vs, rfl, hvs⟩ := tokens_eq_cons.1 h₁
    rw [List.append_assoc, List.cons_append,
      ihf hus (ht.ends p _) (ht.notFirst (by decide) p _),
      (chain_disjuncts stop).goes_on f ht, ihg hvs hr, (chain_conjuncts stop).stops g hand]
    rfl

/-! ## Whole expressions -/

theorem parse_eq_ok_iff {stop : Nat} {ts : List Placed} {f : Formula} :
    parse stop ts = .ok f ↔ Sentence (tokens ts) f := by
  constructor
  · intro h
    unfold parse at h
    split at h
    · cases h
    · split at h
      · cases h
      · next g _ hg =>
        obtain rfl := Except.ok.inj h
        have hread : formula stop .disjunction ts = .ok (g, []) := by
          simp only [formula, hg]
          rfl
        obtain ⟨us, rfl, hus⟩ := takes_formula .disjunction hread
        rwa [List.append_nil]
      · cases h
  · intro h
    have hread : formula stop .disjunction ts = .ok (f, []) := by
      have hgoes : Goes stop f ts [] .disjunction := goes h rfl nofun
      rw [← (chain_disjuncts stop).nil f, ← hgoes nofun, List.append_nil]
    cases hd : disjunction stop ts with
    | error e => simp [formula, hd, plain, Except.map] at hread
    | ok x =>
      obtain ⟨g, rest, hlt⟩ := x
      simp only [formula, hd, plain, Except.map, Except.ok.injEq, Prod.mk.injEq] at hread
      obtain ⟨rfl, rfl⟩ := hread
      have hne : ts ≠ [] := List.length_pos_iff.1 (Nat.zero_lt_of_lt hlt)
      simp only [parse, if_neg hne, hd]

/-- The grammar is not ambiguous. -/
theorem Sentence.unique {ts : List Token} {f g : Formula} (hf : Sentence ts f)
    (hg : Sentence ts g) : f = g := by
  have hts : tokens (ts.map (⟨·, 0⟩)) = ts := by simp [tokens, Function.comp_def]
  rw [← hts, ← @parse_eq_ok_iff 0] at hf hg
  exact Except.ok.inj (hf.symm.trans hg)

theorem read_eq_ok_iff {text : String} {f : Formula} :
    read text = .ok f ↔ ∃ ts, Token.lex text = .ok ts ∧ Sentence (tokens ts) f := by
  constructor
  · intro h
    obtain ⟨ts, hts, h⟩ := bind_eq_ok h
    exact ⟨ts, hts, parse_eq_ok_iff.1 h⟩
  · rintro ⟨ts, hts, h⟩
    simp only [read, hts, bind, Except.bind, parse_eq_ok_iff.2 h]

/-- A text is read as a formula in front of whatever separates tokens. -/
theorem exists_spelling_of_read {text : String} {f : Formula} (h : read text = .ok f) :
    ∃ us, Sentence us f ∧ Token.SpellsApart text.toList us := by
  obtain ⟨ts, hlex, hsentence⟩ := read_eq_ok_iff.1 h
  exact ⟨tokens ts, hsentence, Token.spellsApart_of_lex hlex⟩

theorem read_of_spelling {text : String} {f : Formula} {us : List Token} (hf : Sentence us f)
    (hspells : Token.SpellsApart text.toList us) : read text = .ok f := by
  obtain ⟨ts, hlex, rfl⟩ := hspells.lex
  exact read_eq_ok_iff.2 ⟨ts, hlex, hf⟩

/-! ## Phrases of one connective -/

/-- The level at which operands are joined by a connective. -/
def level : Connective → Level
  | .and => .conjunction
  | .or => .disjunction

theorem FormulaPhrase.first {ts : List Token} {f : Formula} (c : Connective)
    (h : FormulaPhrase .primary ts f) : FormulaPhrase (level c) ts f := by
  cases c with
  | and => exact .conjunct h
  | or => exact .disjunct (.conjunct h)

theorem FormulaPhrase.next {c : Connective} {t : Token} {ts us : List Token} {f g : Formula}
    (hf : FormulaPhrase (level c) ts f) (ht : Junction t c) (hg : FormulaPhrase .primary us g) :
    FormulaPhrase (level c) (ts ++ t :: us) (.join c f g) := by
  cases c with
  | and => exact .and hf ht hg
  | or => exact .or hf ht (.conjunct hg)

theorem FormulaPhrase.whole {c : Connective} {ts : List Token} {f : Formula}
    (h : FormulaPhrase (level c) ts f) : FormulaPhrase .disjunction ts f := by
  cases c with
  | and => exact .disjunct h
  | or => exact h

end MetricAlarm.Grammar

namespace MetricAlarm.Expression

theorem exists_formula_of_compile {text : String} {e : Expression} (h : compile text = .ok e) :
    ∃ f, Grammar.read text = .ok f ∧ e = ⟨text, f.steps⟩ := by
  obtain ⟨f, hf, he⟩ := Grammar.map_eq_ok h
  exact ⟨f, hf, he.symm⟩

theorem compile_of_read {text : String} {f : Formula} (h : Grammar.read text = .ok f) :
    compile text = .ok ⟨text, f.steps⟩ := by
  rw [compile, h]
  rfl

theorem compile_of_lex {text : String} {ts : List Placed} (h : Token.lex text = .ok ts) :
    compile text = (Grammar.parse text.length ts).map fun f => ⟨text, f.steps⟩ := by
  rw [compile, Grammar.read, h]
  rfl

/-- A text that does not compile has no tokens, or they are no sentence. -/
theorem compile_eq_error {text : String} {e : ExpressionError} (h : compile text = .error e) :
    Token.lex text = .error e ∨
      ∃ ts, Token.lex text = .ok ts ∧ Grammar.parse text.length ts = .error e := by
  cases hlex : Token.lex text with
  | error e' =>
    rw [compile, Grammar.read, hlex] at h
    exact .inl (congrArg Except.error (Except.error.inj h))
  | ok ts =>
    rw [compile_of_lex hlex] at h
    refine .inr ⟨ts, rfl, ?_⟩
    cases hparse : Grammar.parse text.length ts with
    | error e' =>
      rw [hparse] at h
      exact congrArg Except.error (Except.error.inj h)
    | ok f =>
      rw [hparse] at h
      cases h

end MetricAlarm.Expression
