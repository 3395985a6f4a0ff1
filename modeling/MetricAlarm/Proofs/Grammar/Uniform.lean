import MetricAlarm.Proofs.Grammar.Formula
import MetricAlarm.Proofs.Grammar.Outcome

/-!
# Expressions are read without looking at places

The readers of conditions and formulas are uniform, and so is the reader of a whole expression: the
levels of formulas by induction on the number of tokens. Main statements: `uniform_formula` and
`exists_outcome_parse`.
-/

namespace MetricAlarm.Grammar

variable {us : List Token}

/-! ## Conditions -/

/-- What the reader of arguments does with a word behind a comma. -/
def Arguments.add (given : Arguments) (w : String) : Except SyntaxFault Arguments :=
  if isKeyword "deterministic" w then
    if given.deterministic then .error .repeatedDeterministic
    else .ok { given with deterministic := true }
  else if looksNatural w then
    if given.period.isSome then .error .repeatedPeriod
    else
      match integer? w with
      | .some n => .ok { given with period := some n }
      | .none => .error .period
  else .error .argument

theorem arguments_word (stop : Nat) (given : Arguments) (w : String) (p q : Nat)
    (ts : List Placed) : arguments stop given (⟨.comma, p⟩ :: ⟨.word w, q⟩ :: ts) =
      match given.add w with
      | .ok all => arguments stop all ts
      | .error fault => .error (faultAt stop fault (⟨.word w, q⟩ :: ts)) := by
  rw [arguments, Arguments.add]
  by_cases hk : isKeyword "deterministic" w = true
  · cases hd : given.deterministic <;> simp [hk]
  · by_cases hn : looksNatural w = true
    · cases hp : given.period.isSome <;> cases hi : integer? w <;> simp [hk, hn]
    · simp [hk, hn]

theorem uniform_arguments (given : Arguments) : Uniform (arguments · given) := by
  intro us
  induction hn : us.length using Nat.strongRecOn generalizing given us with
  | ind n ih =>
    cases us with
    | nil => exact uniformOn_nil .functionEnd fun _ => rfl
    | cons t us =>
      cases t with
      | rightParen => exact Settles.uniformOn (.inl ⟨given, fun _ _ _ => rfl⟩) us
      | comma =>
        cases us with
        | nil =>
          refine (uniform_faultAt .argument []).cons fun stop p ts hts => ?_
          rw [tokens_eq_nil.1 hts]
          rfl
        | cons u us =>
          cases u with
          | word w =>
            cases hadd : given.add w with
            | ok all =>
              have hrest : UniformOn (arguments · all) us :=
                ih us.length (by simp only [List.length_cons] at hn; omega) all us rfl
              refine hrest.behind [.comma, .word w] fun stop vs ts hvs _ => ?_
              obtain ⟨p, ts₁, rfl, h₁⟩ := tokens_eq_cons.1 hvs
              obtain ⟨q, ts₂, rfl, h₂⟩ := tokens_eq_cons.1 h₁
              obtain rfl := tokens_eq_nil.1 h₂
              simp only [List.cons_append, List.nil_append, arguments_word, hadd]
            | error fault =>
              refine (uniform_faultAt fault (.word w :: us)).cons fun stop p ts hts => ?_
              obtain ⟨q, ts, rfl, -⟩ := tokens_eq_cons.1 hts
              rw [arguments_word, hadd]
          | _ =>
            refine (uniform_faultAt .argument (_ :: us)).cons fun stop p ts hts => ?_
            obtain ⟨q, ts, rfl, -⟩ := tokens_eq_cons.1 hts
            rfl
      | _ => exact Settles.uniformOn (.inr ⟨.functionEnd, fun _ _ _ => rfl⟩) us

theorem uniform_measured : Uniform measured := by
  intro us
  by_cases hcall : ∃ (w : String) (f : Aggregate) (vs : List Token),
      us = .word w :: .leftParen :: vs ∧ Text.sameIgnoringCase w f.name = true
  · obtain ⟨w, f, us, rfl, hw⟩ := hcall
    have hread : Uniform fun stop ts => metric stop ts >>= fun x =>
        arguments stop .none x.2 >>= fun y => .ok (Measured.mk (some f) x.1 y.1, y.2) := by
      refine uniform_metric.bind fun m => ?_
      dsimp only
      exact (uniform_arguments .none).bind fun given => uniform_ok (Measured.mk (some f) m given)
    refine (hread us).behind [.word w, .leftParen] fun stop vs ts hvs _ => ?_
    obtain ⟨p, ts₁, rfl, h₁⟩ := tokens_eq_cons.1 hvs
    obtain ⟨q, ts₂, rfl, h₂⟩ := tokens_eq_cons.1 h₁
    obtain rfl := tokens_eq_nil.1 h₂
    have hc : call? (⟨.word w, p⟩ :: ⟨.leftParen, q⟩ :: ts) = some (f, ts) :=
      call?_eq_some.2 ⟨w, p, q, rfl, hw⟩
    simp only [measured, List.cons_append, List.nil_append, hc]
  · have hread : Uniform fun stop ts => metric stop ts >>= fun x =>
        .ok (Measured.mk none x.1 .none, x.2) :=
      uniform_metric.bind fun m => uniform_ok (Measured.mk none m .none)
    refine (hread us).congr fun stop ts hts => ?_
    have hc : call? ts = none := by
      rw [Option.eq_none_iff_forall_ne_some]
      rintro ⟨f, vs⟩ hc
      obtain ⟨w, p, q, rfl, hw⟩ := call?_eq_some.1 hc
      exact hcall ⟨w, f, tokens vs, hts.symm, hw⟩
    simp only [measured, hc]

theorem uniform_comparison : Uniform comparison := by
  intro us
  by_cases hfirst : ThresholdFirst us
  · have hread : Uniform fun stop ts => threshold stop ts >>= fun x =>
        comparator stop x.2 >>= fun y => measured stop y.2 >>= fun z =>
          .ok (Comparison.mk z.1 y.1.mirror x.1, z.2) := by
      refine uniform_threshold.bind fun x => ?_
      dsimp only
      refine uniform_comparator.bind fun c => ?_
      dsimp only
      exact uniform_measured.bind fun m => uniform_ok (Comparison.mk m c.mirror x)
    refine (hread us).congr fun stop ts hts => ?_
    exact if_pos (startsWithThreshold_iff.2 (hts ▸ hfirst))
  · have hread : Uniform fun stop ts => measured stop ts >>= fun x =>
        comparator stop x.2 >>= fun y => threshold stop y.2 >>= fun z =>
          .ok (Comparison.mk x.1 y.1 z.1, z.2) := by
      refine uniform_measured.bind fun m => ?_
      dsimp only
      refine uniform_comparator.bind fun c => ?_
      dsimp only
      exact uniform_threshold.bind fun x => uniform_ok (Comparison.mk m c x)
    refine (hread us).congr fun stop ts hts => ?_
    exact if_neg fun h => hfirst (hts ▸ startsWithThreshold_iff.1 h)

theorem uniform_periods : Uniform periods := by
  intro us
  have hnone : UniformOn (fun _ ts => .ok (Condition.defaultPeriods, ts)) us := uniform_ok _ us
  cases us with
  | nil => exact hnone.congr fun stop ts hts => by rw [tokens_eq_nil.1 hts]; rfl
  | cons t us =>
    cases t with
    | word w =>
      by_cases hw : isKeyword "times" w = true
      · refine (uniform_integer .periods us).cons fun stop p ts _ => ?_
        rw [periods, if_pos hw]
      · refine hnone.congr fun stop ts hts => ?_
        obtain ⟨p, ts, rfl, -⟩ := tokens_eq_cons.1 hts
        rw [periods, if_neg hw]
    | _ =>
      refine hnone.congr fun stop ts hts => ?_
      obtain ⟨p, ts, rfl, -⟩ := tokens_eq_cons.1 hts
      rfl

theorem uniform_condition : Uniform condition :=
  uniform_comparison.bind fun _ => uniform_periods.bind fun _ => uniform_ok _

/-! ## Formulas -/

theorem plain_eq_ok {p : List Placed → Prop} {x : Except ExpressionError (Formula × { rest // p rest })}
    {f : Formula} {rest : List Placed} (h : plain x = .ok (f, rest)) : p rest := by
  cases x with
  | error e => cases h
  | ok x =>
    obtain ⟨-, rfl⟩ := Prod.mk.inj (Except.ok.inj h)
    exact x.2.2

theorem formula_length {stop : Nat} (level : Level) : Consumes (formula stop level) := by
  intro ts rest f h
  cases level with
  | primary | conjunction | disjunction => exact plain_eq_ok h

/-- A chain of operands, as far as its operands are uniform. -/
theorem UniformOn.chain {c : Connective} {operand reader : Nat → Reader Formula}
    {more : Nat → Formula → Reader Formula}
    (h : ∀ stop, Chain c (operand stop) (more stop) (reader stop))
    (hc : ∀ stop, Consumes (operand stop)) (hfirst : UniformOn operand us)
    (hop : ∀ vs : List Token, vs.length < us.length → UniformOn operand vs) :
    UniformOn reader us := by
  refine UniformOn.congr ?_ fun stop ts _ => (h stop).start ts
  refine hfirst.bind_shorter hc fun f vs hvs => ?_
  -- each operand leaves fewer tokens for the loop behind it
  induction hn : vs.length using Nat.strongRecOn generalizing f vs with
  | ind n ih =>
    cases vs with
    | nil =>
      refine (uniform_ok f []).congr fun stop ts hts => ?_
      obtain rfl := tokens_eq_nil.1 hts
      exact (h stop).nil f
    | cons t vs =>
      by_cases ht : spells c t = true
      · have hread : UniformOn (fun stop ts => operand stop ts >>= fun x =>
            more stop (.join c f x.1) x.2) vs :=
          (hop vs (by simp only [List.length_cons] at hvs; omega)).bind_shorter hc
            fun g ws hws => ih ws.length (by simp only [List.length_cons] at hn; omega) (.join c f g) ws
              (by simp only [List.length_cons] at hvs; omega) rfl
        refine hread.cons fun stop p ts _ => ?_
        exact ((h stop).cons f _ ts).trans (if_pos ht)
      · refine (uniform_ok f (t :: vs)).congr fun stop ts hts => ?_
        obtain ⟨p, ts, rfl, -⟩ := tokens_eq_cons.1 hts
        exact ((h stop).cons f _ ts).trans (if_neg ht)

theorem uniformOn_primary
    (h : ∀ vs : List Token, vs.length < us.length → UniformOn (formula · .disjunction) vs) :
    UniformOn (formula · .primary) us := by
  by_cases hparen : ∀ t ∈ us.head?, ¬ t = .leftParen
  · have hread : Uniform fun stop ts => condition stop ts >>= fun x =>
        .ok (Formula.condition x.1, x.2) := uniform_condition.bind fun c => uniform_ok (Formula.condition c)
    refine (hread us).congr fun stop ts hts => ?_
    exact formula_condition (notFirst_iff.2 (hts ▸ hparen))
  · obtain ⟨us, rfl⟩ := exists_leading hparen
    have hread : UniformOn (fun stop ts => formula stop .disjunction ts >>= fun x =>
        (closing stop x.2).map fun rest => (x.1, rest.1)) us :=
      (h us (Nat.lt_succ_self _)).bind fun f n _ => uniform_closing f _
    exact hread.cons fun stop p ts _ => formula_parentheses p ts

theorem uniform_formula (level : Level) : Uniform (formula · level) := by
  intro us
  induction hn : us.length using Nat.strongRecOn generalizing level us with
  | ind n ih =>
    have hshort : ∀ (level : Level) (vs : List Token), vs.length < us.length →
        UniformOn (formula · level) vs :=
      fun level vs hvs => ih vs.length (hn ▸ hvs) level vs rfl
    have hprimary : UniformOn (formula · .primary) us := uniformOn_primary (hshort .disjunction)
    have hconjunction : UniformOn (formula · .conjunction) us :=
      .chain chain_conjuncts (fun _ => formula_length .primary) hprimary (hshort .primary)
    cases level with
    | primary => exact hprimary
    | conjunction => exact hconjunction
    | disjunction =>
      exact .chain chain_disjuncts (fun _ => formula_length .conjunction) hconjunction
        (hshort .conjunction)

/-- Nothing is left. -/
def ending (f : Formula) (stop : Nat) : Reader Formula
  | [] => .ok (f, [])
  | t :: ts => .error (faultAt stop .trailingToken (t :: ts))

theorem uniform_ending (f : Formula) : Uniform (ending f) := by
  intro us
  cases us with
  | nil =>
    refine (uniform_ok f []).congr fun stop ts hts => ?_
    obtain rfl := tokens_eq_nil.1 hts
    rfl
  | cons t us => exact Settles.uniformOn (.inr ⟨.trailingToken, fun _ _ _ => rfl⟩) us

theorem parse_eq {stop : Nat} {ts : List Placed} (h : ts ≠ []) :
    parse stop ts =
      (formula stop .disjunction ts >>= fun x => ending x.1 stop x.2).map Prod.fst := by
  rw [parse, if_neg h]
  simp only [formula]
  cases disjunction stop ts with
  | error e => rfl
  | ok x =>
    obtain ⟨f, rest, hlt⟩ := x
    cases rest <;> rfl

theorem exists_outcome_parse {us : List Token} (h : us ≠ []) : ∃ o : Outcome Formula,
    ∀ stop ts, tokens ts = us → parse stop ts = (o.result stop ts).map Prod.fst := by
  have hread : UniformOn (fun stop ts => formula stop .disjunction ts >>= fun x =>
      ending x.1 stop x.2) us := (uniform_formula .disjunction).bind (fun f => uniform_ending f) us
  obtain ⟨o, ho⟩ := hread
  refine ⟨o, fun stop ts hts => ?_⟩
  rw [parse_eq fun hnil => h (hts ▸ tokens_eq_nil.2 hnil)]
  exact congrArg (Except.map Prod.fst) (ho stop ts hts)

/-- Where the reader of an expression stops: in front of some of the tokens, or at the end. -/
theorem parse_eq_error {stop : Nat} {ts : List Placed} {e : ExpressionError}
    (h : parse stop ts = .error e) :
    (ts = [] ∧ e = .malformedText 0 "<EOF>" .emptyExpression) ∨
      (ts ≠ [] ∧ ∃ fault n, e = faultAt stop fault (ts.drop n)) ∨
      ∃ name, e = .duplicateDimension name := by
  by_cases hts : ts = []
  · subst hts
    exact .inl ⟨rfl, (Except.error.inj h).symm⟩
  · obtain ⟨o, ho⟩ := exists_outcome_parse fun hnil => hts (tokens_eq_nil.1 hnil)
    rw [ho stop ts rfl] at h
    cases o with
    | takes f n => cases h
    | blames fault n => exact .inr (.inl ⟨hts, fault, n, (Except.error.inj h).symm⟩)
    | repeats name => exact .inr (.inr ⟨name, (Except.error.inj h).symm⟩)

end MetricAlarm.Grammar
