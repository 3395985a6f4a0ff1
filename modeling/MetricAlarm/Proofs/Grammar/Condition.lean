import MetricAlarm.Proofs.Grammar.Metric

/-!
# Conditions are read as they are phrased

Main statements: `takes_condition` and `finds_condition`. What follows a condition is the end, a
closing parenthesis or a connective (`Ends`); none of these can belong to it.
-/

namespace MetricAlarm.Grammar

/-! ## Arguments -/

/-- Arguments that add to what is given; nothing is given twice. -/
structure Adds (given : Arguments) (as : List Argument) (all : Arguments) : Prop where
  period : all.period.toList = given.period.toList ++ as.filterMap Argument.period?
  deterministic : all.deterministic.toNat = given.deterministic.toNat + as.count .deterministic

theorem adds_nil {given all : Arguments} : Adds given [] all ↔ all = given := by
  obtain ⟨p, d⟩ := given
  obtain ⟨p', d'⟩ := all
  constructor
  · rintro ⟨hp, hd⟩
    have hp : p' = p := by cases p <;> cases p' <;> simp_all
    have hd : d' = d := by cases d <;> cases d' <;> simp_all
    rw [hp, hd]
  · rintro h
    cases h
    exact ⟨by simp, by simp⟩

theorem adds_period {given all : Arguments} {n : UInt32} {as : List Argument} :
    Adds given (.period n :: as) all ↔
      given.period = none ∧ Adds { given with period := some n } as all := by
  obtain ⟨p, d⟩ := given
  constructor
  · rintro ⟨hp, hd⟩
    cases p with
    | none => exact ⟨rfl, hp, by simpa using hd⟩
    | some m =>
      have hlen := congrArg List.length hp
      have : all.period.toList.length ≤ 1 := by cases all.period <;> simp
      simp [Argument.period?] at hlen
      omega
  · rintro ⟨hnone, hp, hd⟩
    obtain rfl : p = none := hnone
    exact ⟨hp, by simpa using hd⟩

theorem adds_deterministic {given all : Arguments} {as : List Argument} :
    Adds given (.deterministic :: as) all ↔
      given.deterministic = false ∧ Adds { given with deterministic := true } as all := by
  obtain ⟨p, d⟩ := given
  constructor
  · rintro ⟨hp, hd⟩
    rw [List.count_cons_self] at hd
    cases d with
    | false => exact ⟨rfl, hp, by rw [hd, Nat.add_comm]; simp [Nat.add_comm]⟩
    | true =>
      have := all.deterministic.toNat_le
      simp only [Bool.toNat_true] at hd
      omega
  · rintro ⟨hfalse, hp, hd⟩
    obtain rfl : d = false := hfalse
    refine ⟨hp, ?_⟩
    rw [List.count_cons_self, hd]
    simp [Nat.add_comm]

theorem says_iff {as : List Argument} {given : Arguments} : Says as given ↔ Adds .none as given :=
  ⟨fun ⟨hp, hd⟩ => ⟨hp.symm, by simpa [Arguments.none] using hd.symm⟩,
    fun ⟨hp, hd⟩ => ⟨hp.symm, by simpa [Arguments.none] using hd.symm⟩⟩

/-- A number is no keyword. -/
theorem IsInteger.not_keyword {w : String} {n : UInt32} (h : IsInteger w n) :
    isKeyword "deterministic" w = false := by
  rw [Bool.eq_false_iff]
  intro hk
  have hk := sameIgnoringCase_iff.1 hk
  obtain ⟨c, cs, hw⟩ := List.exists_cons_of_ne_nil h.nonempty
  have hc : c.isDigit = true := h.digits c (hw ▸ List.mem_cons_self)
  have hd : c.toLower = 'd' := by
    rw [hw] at hk
    exact (List.cons.inj hk).1
  have hlow : c.toLower = c := by
    simp only [Char.isDigit, Bool.and_eq_true, decide_eq_true_eq] at hc
    refine dif_neg fun hu => ?_
    have h₁ := UInt32.le_iff_toNat_le.1 hc.2
    have h₂ := UInt32.le_iff_toNat_le.1 hu.1
    simp at h₁ h₂
    omega
  rw [← hlow, hd] at hc
  revert hc
  decide

theorem IsInteger.looksNatural {w : String} {n : UInt32} (h : IsInteger w n) :
    looksNatural w = true := by
  have hall : w.toList.all Text.isDecimalDigit = true :=
    List.all_eq_true.2 fun c hc => Text.isDecimalDigit_of_isDigit c (h.digits c hc)
  have hne : (w.toList != []) = true := bne_iff_ne.2 h.nonempty
  rw [MetricAlarm.looksNatural, hne, hall, Bool.and_self]

theorem takes_arguments {stop : Nat} {given : Arguments} :
    Takes (arguments stop given) fun ts all => ∃ us as, ts = us ++ [.rightParen] ∧
      ArgumentList us as ∧ Adds given as all := by
  intro ts rest all h
  fun_induction arguments stop given ts with
  | case1 => cases h
  | case2 given q w p ts hk hgiven ih =>
    obtain ⟨us, rfl, vs, as, hus, hargs, hadds⟩ := ih h
    refine ⟨⟨.comma, q⟩ :: ⟨.word w, p⟩ :: us, rfl, .comma :: .word w :: vs, .deterministic :: as,
      by simp [hus], .cons (.deterministic hk) hargs, ?_⟩
    exact adds_deterministic.2 ⟨by simpa using hgiven, hadds⟩
  | case3 => cases h
  | case4 given q w p ts hk _ hgiven n hn ih =>
    obtain ⟨us, rfl, vs, as, hus, hargs, hadds⟩ := ih h
    refine ⟨⟨.comma, q⟩ :: ⟨.word w, p⟩ :: us, rfl, .comma :: .word w :: vs, .period n :: as,
      by simp [hus], .cons (.period (integer?_eq_some.1 hn)) hargs, ?_⟩
    exact adds_period.2 ⟨by simpa using hgiven, hadds⟩
  | case5 => cases h
  | case6 => cases h
  | case7 => cases h
  | case8 given p ts =>
    simp only [Except.ok.injEq, Prod.mk.injEq] at h
    obtain ⟨rfl, rfl⟩ := h
    exact ⟨[⟨.rightParen, p⟩], rfl, [], [], rfl, .nil, adds_nil.2 rfl⟩
  | case9 => cases h

theorem arguments_append {stop : Nat} {given all : Arguments} {ts rest : List Placed}
    {as : List Argument} (hts : ArgumentList (tokens ts) as) (ha : Adds given as all) (p : Nat) :
    arguments stop given (ts ++ ⟨.rightParen, p⟩ :: rest) = .ok (all, rest) := by
  generalize htok : tokens ts = us at hts
  induction hts generalizing given ts with
  | nil =>
    obtain rfl := tokens_eq_nil.1 htok
    obtain rfl := adds_nil.1 ha
    rfl
  | cons hphrase _ ih =>
    obtain ⟨q, ts₁, rfl, h₁⟩ := tokens_eq_cons.1 htok
    obtain ⟨r, ts₂, rfl, h₂⟩ := tokens_eq_cons.1 h₁
    cases hphrase with
    | @period w n hn =>
      obtain ⟨hnone, ha⟩ := adds_period.1 ha
      simp only [List.cons_append, arguments, hn.not_keyword, hn.looksNatural, hnone,
        integer?_eq_some.2 hn, Bool.false_eq_true, if_false, if_true, Option.isSome_none]
      exact ih ha h₂
    | @deterministic w hk =>
      obtain ⟨hfalse, ha⟩ := adds_deterministic.1 ha
      have hk : isKeyword "deterministic" w = true := hk
      simp only [List.cons_append, arguments, hk, hfalse, Bool.false_eq_true, if_false, if_true]
      exact ih ha h₂

/-! ## Measured metrics -/

theorem call?_eq_some {ts rest : List Placed} {f : Aggregate} :
    call? ts = some (f, rest) ↔
      ∃ w p q, ts = ⟨.word w, p⟩ :: ⟨.leftParen, q⟩ :: rest ∧
        Text.sameIgnoringCase w f.name = true := by
  constructor
  · intro h
    unfold call? at h
    split at h
    · next w p q us =>
      simp only [Option.map_eq_some_iff, Prod.mk.injEq] at h
      obtain ⟨g, hg, rfl, rfl⟩ := h
      exact ⟨w, p, q, rfl, ofName?_eq_some.1 hg⟩
    · cases h
  · rintro ⟨w, p, q, rfl, hw⟩
    simp only [call?, ofName?_eq_some.2 hw, Option.map_some]

theorem takes_measured {stop : Nat} : Takes (measured stop) MeasuredPhrase := by
  intro ts rest m h
  unfold measured at h
  split at h
  · next f us hc =>
    obtain ⟨w, p, q, rfl, hw⟩ := call?_eq_some.1 hc
    obtain ⟨⟨m, vs⟩, hm, h⟩ := bind_eq_ok h
    obtain ⟨⟨given, vs'⟩, hg, h⟩ := bind_eq_ok h
    simp only [Except.ok.injEq, Prod.mk.injEq] at h
    obtain ⟨rfl, rfl⟩ := h
    obtain ⟨ms, rfl, hms⟩ := takes_metric hm
    obtain ⟨as, rfl, as', args, has, hargs, hadds⟩ := takes_arguments hg
    refine ⟨⟨.word w, p⟩ :: ⟨.leftParen, q⟩ :: (ms ++ as), by simp, ?_⟩
    rw [tokens_cons, tokens_cons, tokens_append, has, ← List.append_assoc]
    exact .call hw hms hargs (says_iff.2 hadds)
  · obtain ⟨⟨m, vs⟩, hm, h⟩ := bind_eq_ok h
    simp only [Except.ok.injEq, Prod.mk.injEq] at h
    obtain ⟨rfl, rfl⟩ := h
    obtain ⟨ms, rfl, hms⟩ := takes_metric hm
    exact ⟨ms, rfl, .bare hms⟩

/-- A metric in front of anything but a parenthesis is no call. -/
theorem call?_metric {ts rest : List Placed} {m : Metric} (hm : MetricPhrase (tokens ts) m)
    (hr : NotFirst (· = .leftParen) rest) : call? (ts ++ rest) = none := by
  rw [Option.eq_none_iff_forall_ne_some]
  rintro ⟨f, us⟩ hc
  obtain ⟨w, p, q, hts, -⟩ := call?_eq_some.1 hc
  generalize htok : tokens ts = vs at hm
  cases hm with
  | bare name =>
    obtain ⟨p', ts₁, rfl, h₁⟩ := tokens_eq_cons.1 htok
    obtain rfl := tokens_eq_nil.1 h₁
    obtain ⟨-, rfl⟩ := List.cons.inj hts
    exact notFirst_cons.1 hr rfl
  | empty name | dimensions name _ _ =>
    obtain ⟨p', ts₁, rfl, h₁⟩ := tokens_eq_cons.1 htok
    obtain ⟨p'', ts₂, rfl, -⟩ := tokens_eq_cons.1 h₁
    simp at hts

/-- Neither a call nor dimensions go on with these tokens. -/
def EndsMetric (ts : List Placed) : Prop :=
  NotFirst (fun t => t = .leftBrace ∨ t = .leftParen) ts

theorem EndsMetric.leftBrace {ts : List Placed} (h : EndsMetric ts) :
    NotFirst (· = .leftBrace) ts := fun t ht he => h t ht (Or.inl he)

theorem EndsMetric.leftParen {ts : List Placed} (h : EndsMetric ts) :
    NotFirst (· = .leftParen) ts := fun t ht he => h t ht (Or.inr he)

theorem ArgumentList.not_leftBrace {ts us : List Placed} {as : List Argument} {p : Nat}
    (h : ArgumentList (tokens ts) as) :
    NotFirst (· = .leftBrace) (ts ++ ⟨.rightParen, p⟩ :: us) := by
  generalize htok : tokens ts = vs at h
  cases h with
  | nil =>
    obtain rfl := tokens_eq_nil.1 htok
    exact notFirst_cons.2 nofun
  | cons _ _ =>
    obtain ⟨q, ts₁, rfl, -⟩ := tokens_eq_cons.1 htok
    exact notFirst_cons.2 nofun

theorem finds_measured {stop : Nat} : Finds (measured stop) MeasuredPhrase EndsMetric := by
  intro ts rest m hm hr
  generalize htok : tokens ts = us at hm
  cases hm with
  | @call w f ms as m args given hw hms hargs hsays =>
    obtain ⟨p, ts₁, rfl, h₁⟩ := tokens_eq_cons.1 htok
    obtain ⟨q, ts₂, rfl, h₂⟩ := tokens_eq_cons.1 h₁
    rw [List.append_assoc] at h₂
    obtain ⟨ms, ts₃, rfl, rfl, h₃⟩ := tokens_eq_append.1 h₂
    obtain ⟨as, ts₄, rfl, rfl, h₄⟩ := tokens_eq_append.1 h₃
    obtain ⟨r, ts₅, rfl, h₅⟩ := tokens_eq_cons.1 h₄
    obtain rfl := tokens_eq_nil.1 h₅
    have hmetric : metric stop (ms ++ (as ++ ⟨.rightParen, r⟩ :: rest)) = _ :=
      finds_metric hms hargs.not_leftBrace
    have hgiven : arguments stop .none (as ++ ⟨.rightParen, r⟩ :: rest) = _ :=
      arguments_append hargs (says_iff.1 hsays) r
    have hcall : call? (⟨.word w, p⟩ :: ⟨.leftParen, q⟩ :: (ms ++ (as ++ ⟨.rightParen, r⟩ :: rest)))
        = _ := call?_eq_some.2 ⟨w, p, q, rfl, hw⟩
    simp only [measured, List.cons_append, List.append_assoc, List.nil_append, hcall, hmetric,
      hgiven, bind, Except.bind]
  | bare hms =>
    subst htok
    simp only [measured, call?_metric hms hr.leftParen, finds_metric hms hr.leftBrace, bind,
      Except.bind]

/-! ## Comparisons -/

theorem startsWithThreshold_iff {ts : List Placed} :
    startsWithThreshold ts = true ↔ ThresholdFirst (tokens ts) := by
  constructor
  · intro h
    unfold startsWithThreshold at h
    split at h
    · next w p t us =>
      rw [Bool.and_eq_true, Option.isSome_iff_exists] at h
      obtain ⟨hw, c, hc⟩ := h
      exact ⟨w, t.token, tokens us, c, rfl, hw, comparatorOf?_eq_some.1 hc⟩
    · cases h
  · rintro ⟨w, t, us, c, hts, hw, hc⟩
    obtain ⟨p, ts₁, rfl, h₁⟩ := tokens_eq_cons.1 hts
    obtain ⟨q, ts₂, rfl, -⟩ := tokens_eq_cons.1 h₁
    simp only [startsWithThreshold, hw, comparatorOf?_eq_some.2 hc, Option.isSome_some,
      Bool.and_self]

/-- Two tokens decide. -/
theorem thresholdFirst_append {ts us : List Token} (h : 2 ≤ ts.length) :
    ThresholdFirst (ts ++ us) ↔ ThresholdFirst ts := by
  match ts, h with
  | t :: t' :: ts, _ =>
    constructor
    · rintro ⟨w, t'', vs, c, hts, hw, hc⟩
      obtain ⟨rfl, h₁⟩ := List.cons.inj hts
      obtain ⟨rfl, -⟩ := List.cons.inj h₁
      exact ⟨w, t', ts, c, rfl, hw, hc⟩
    · rintro ⟨w, t'', vs, c, hts, hw, hc⟩
      exact ⟨w, t'', vs ++ us, c, by rw [hts]; rfl, hw, hc⟩

theorem takes_comparison {stop : Nat} : Takes (comparison stop) ComparisonPhrase := by
  intro ts rest c h
  unfold comparison at h
  split at h
  · obtain ⟨⟨x, ts₁⟩, hx, h⟩ := bind_eq_ok h
    obtain ⟨⟨c, ts₂⟩, hc, h⟩ := bind_eq_ok h
    obtain ⟨⟨m, ts₃⟩, hm, h⟩ := bind_eq_ok h
    simp only [Except.ok.injEq, Prod.mk.injEq] at h
    obtain ⟨rfl, rfl⟩ := h
    obtain ⟨xs, rfl, w, hxs, hw⟩ := takes_threshold hx
    obtain ⟨cs, rfl, t, hcs, ht⟩ := takes_comparator hc
    obtain ⟨ms, rfl, hms⟩ := takes_measured hm
    refine ⟨xs ++ (cs ++ ms), by simp, ?_⟩
    rw [tokens_append, tokens_append, hxs, hcs]
    exact .reversed hw ht hms
  · next hfirst =>
    obtain ⟨⟨m, ts₁⟩, hm, h⟩ := bind_eq_ok h
    obtain ⟨⟨c, ts₂⟩, hc, h⟩ := bind_eq_ok h
    obtain ⟨⟨x, ts₃⟩, hx, h⟩ := bind_eq_ok h
    simp only [Except.ok.injEq, Prod.mk.injEq] at h
    obtain ⟨rfl, rfl⟩ := h
    obtain ⟨ms, rfl, hms⟩ := takes_measured hm
    obtain ⟨cs, rfl, t, hcs, ht⟩ := takes_comparator hc
    obtain ⟨xs, rfl, w, hxs, hw⟩ := takes_threshold hx
    refine ⟨ms ++ (cs ++ xs), by simp, ?_⟩
    rw [startsWithThreshold_iff, ← List.append_assoc cs, ← List.append_assoc ms, tokens_append,
      tokens_append, tokens_append, hcs, hxs, thresholdFirst_append (by simp)] at hfirst
    rw [tokens_append, tokens_append, hcs, hxs]
    exact .direct hms ht hw hfirst

/-- A comparator ends a metric. -/
theorem Relop.endsMetric {t : Token} {c : Comparator} (h : Relop t c) (p : Nat)
    (ts : List Placed) : EndsMetric (⟨t, p⟩ :: ts) := by
  refine notFirst_cons.2 ?_
  cases h <;> rintro (h | h) <;> cases h

theorem finds_comparison {stop : Nat} : Finds (comparison stop) ComparisonPhrase EndsMetric := by
  intro ts rest c hc hr
  generalize htok : tokens ts = us at hc
  cases hc with
  | @direct ms t w m c x hms ht hw hfirst =>
    have hsecond : ¬ startsWithThreshold (ts ++ rest) = true := by
      rw [startsWithThreshold_iff, tokens_append, htok, thresholdFirst_append (by simp)]
      exact hfirst
    obtain ⟨ms, ts₁, rfl, rfl, h₁⟩ := tokens_eq_append.1 htok
    obtain ⟨p, ts₂, rfl, h₂⟩ := tokens_eq_cons.1 h₁
    obtain ⟨q, ts₃, rfl, h₃⟩ := tokens_eq_cons.1 h₂
    obtain rfl := tokens_eq_nil.1 h₃
    have hmeasured : measured stop (ms ++ ⟨t, p⟩ :: ⟨.word w, q⟩ :: rest) = _ :=
      finds_measured hms (ht.endsMetric p _)
    have hcomparator : comparator stop (⟨t, p⟩ :: ⟨.word w, q⟩ :: rest) = _ :=
      comparator_token ht _
    rw [comparison, if_neg hsecond]
    simp only [List.append_assoc, List.cons_append, List.nil_append, hmeasured, hcomparator,
      threshold_word hw, bind, Except.bind]
  | @reversed ms t w m c x hw ht hms =>
    have hfirst : startsWithThreshold (ts ++ rest) = true := by
      rw [startsWithThreshold_iff, tokens_append, htok]
      exact ⟨w, t, _, c, rfl, hw.numeric, ht⟩
    obtain ⟨p, ts₁, rfl, h₁⟩ := tokens_eq_cons.1 htok
    obtain ⟨q, ms, rfl, rfl⟩ := tokens_eq_cons.1 h₁
    have hcomparator : comparator stop (⟨t, q⟩ :: (ms ++ rest)) = _ := comparator_token ht _
    rw [comparison, if_pos hfirst]
    simp only [List.cons_append, threshold_word hw, hcomparator, finds_measured hms hr, bind,
      Except.bind]

/-! ## Conditions -/

/-- The end, a closing parenthesis or a connective. -/
def Ends (ts : List Placed) : Prop :=
  ∀ t ∈ ts.head?, t.token = .rightParen ∨ ∃ c, Junction t.token c

theorem Ends.endsMetric {ts : List Placed} (h : Ends ts) : EndsMetric ts := by
  intro t ht hbad
  rcases h t ht with hp | ⟨c, hc⟩
  · rcases hbad with hb | hb <;> simp [hp] at hb
  · rcases hbad with hb | hb <;> (rw [hb] at hc; cases hc)

theorem not_times_of_junction {w : String} {c : Connective} (h : Junction (.word w) c) :
    isKeyword "times" w = false := by
  cases h with
  | word hw =>
    rw [Bool.eq_false_iff]
    intro ht
    have h := (sameIgnoringCase_iff.1 hw).symm.trans (sameIgnoringCase_iff.1 ht)
    revert h
    cases c <;> decide

theorem takes_periods {stop : Nat} {ts rest : List Placed} {n : UInt32}
    (h : periods stop ts = .ok (n, rest)) : (ts = rest ∧ n = Condition.defaultPeriods) ∨
      ∃ us w v, ts = us ++ rest ∧ tokens us = [.word w, .word v] ∧
        Text.sameIgnoringCase w "times" = true ∧ IsInteger v n := by
  unfold periods at h
  split at h
  · next w p us =>
    split at h
    · next hw =>
      obtain ⟨vs, rfl, v, hvs, hv⟩ := takes_integer h
      exact Or.inr ⟨⟨.word w, p⟩ :: vs, w, v, rfl, by rw [tokens_cons, hvs], hw, hv⟩
    · simp only [Except.ok.injEq, Prod.mk.injEq] at h
      exact Or.inl ⟨h.2, h.1.symm⟩
  · simp only [Except.ok.injEq, Prod.mk.injEq] at h
    exact Or.inl ⟨h.2, h.1.symm⟩

theorem periods_of_ends {stop : Nat} {ts : List Placed} (h : Ends ts) :
    periods stop ts = .ok (Condition.defaultPeriods, ts) := by
  unfold periods
  split
  · next w p us =>
    rcases h _ rfl with hp | ⟨c, hc⟩
    · cases hp
    · rw [if_neg (by simp [not_times_of_junction hc])]
  · rfl

theorem condition_eq_meaning (c : Comparison) (n : UInt32) : c.condition n = c.meaning n := by
  obtain ⟨m, c, x⟩ := c
  cases c <;> rfl

theorem takes_condition {stop : Nat} : Takes (condition stop) ConditionPhrase := by
  intro ts rest c h
  obtain ⟨⟨c, ts₁⟩, hc, h⟩ := bind_eq_ok h
  obtain ⟨⟨n, ts₂⟩, hn, h⟩ := bind_eq_ok h
  simp only [Except.ok.injEq, Prod.mk.injEq] at h
  obtain ⟨rfl, rfl⟩ := h
  obtain ⟨cs, rfl, hcs⟩ := takes_comparison hc
  rw [condition_eq_meaning]
  rcases takes_periods hn with ⟨rfl, rfl⟩ | ⟨us, w, v, rfl, hus, hw, hv⟩
  · exact ⟨cs, rfl, .once hcs⟩
  · refine ⟨cs ++ us, by simp, ?_⟩
    rw [tokens_append, hus]
    exact .times hcs hw hv

theorem finds_condition {stop : Nat} : Finds (condition stop) ConditionPhrase Ends := by
  intro ts rest c hc hr
  generalize htok : tokens ts = us at hc
  cases hc with
  | once hcs =>
    subst htok
    simp only [condition, finds_comparison hcs hr.endsMetric, periods_of_ends hr,
      condition_eq_meaning, bind, Except.bind]
    rfl
  | @times cs c w v n hcs hw hv =>
    obtain ⟨cs, ts₁, rfl, rfl, h₁⟩ := tokens_eq_append.1 htok
    obtain ⟨p, ts₂, rfl, h₂⟩ := tokens_eq_cons.1 h₁
    obtain ⟨q, ts₃, rfl, h₃⟩ := tokens_eq_cons.1 h₂
    obtain rfl := tokens_eq_nil.1 h₃
    have hcomparison : comparison stop (cs ++ ⟨.word w, p⟩ :: ⟨.word v, q⟩ :: rest) = _ :=
      finds_comparison hcs (notFirst_cons.2 (by rintro (h | h) <;> cases h))
    have hw : isKeyword "times" w = true := hw
    simp only [condition, List.append_assoc, List.cons_append, List.nil_append, hcomparison,
      periods, hw, if_true, integer_word hv, condition_eq_meaning, bind, Except.bind]

end MetricAlarm.Grammar
