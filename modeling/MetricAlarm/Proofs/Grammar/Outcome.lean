import MetricAlarm.Proofs.Grammar.Metric

/-!
# Readers do not look at places

What a reader takes, and what it blames, is settled by the tokens: where they stand shows in the
error only (`Outcome`). `Uniform` readers put behind each other are uniform again. Main statements:
`UniformOn.bind` and `uniform_metric`.
-/

namespace MetricAlarm.Grammar

/-- What a reader makes of some tokens: a value of the first `n` of them, a fault behind these, or
the complaint that a dimension was given before. -/
inductive Outcome (α : Type)
  | takes (a : α) (n : Nat)
  | blames (fault : SyntaxFault) (n : Nat)
  | repeats (name : String)

variable {α β : Type}

namespace Outcome

/-- The result of the outcome where the tokens have their places. -/
def result (stop : Nat) (ts : List Placed) : Outcome α → Except ExpressionError (α × List Placed)
  | .takes a n => .ok (a, ts.drop n)
  | .blames fault n => .error (faultAt stop fault (ts.drop n))
  | .repeats name => .error (.duplicateDimension name)

/-- The same outcome with `k` more tokens in front. -/
def behind (k : Nat) : Outcome α → Outcome α
  | .takes a n => .takes a (k + n)
  | .blames fault n => .blames fault (k + n)
  | .repeats name => .repeats name

theorem result_behind (o : Outcome α) (k stop : Nat) (ts : List Placed) :
    (o.behind k).result stop ts = o.result stop (ts.drop k) := by
  cases o <;> simp [behind, result]

end Outcome

/-- On these tokens the reader has one outcome, wherever they stand. -/
def UniformOn (r : Nat → Reader α) (us : List Token) : Prop :=
  ∃ o : Outcome α, ∀ stop ts, tokens ts = us → r stop ts = o.result stop ts

def Uniform (r : Nat → Reader α) : Prop := ∀ us, UniformOn r us

variable {r r' : Nat → Reader α} {t : Token} {us : List Token}
  {k : Nat → α × List Placed → Except ExpressionError (β × List Placed)}

theorem uniform_ok (a : α) : Uniform fun _ ts => .ok (a, ts) :=
  fun _ => ⟨.takes a 0, fun _ _ _ => rfl⟩

theorem uniform_faultAt (fault : SyntaxFault) :
    Uniform fun stop ts => (.error (faultAt stop fault ts) : Except _ (α × List Placed)) :=
  fun _ => ⟨.blames fault 0, fun _ _ _ => rfl⟩

theorem uniform_duplicate (name : String) :
    Uniform fun _ _ => (.error (.duplicateDimension name) : Except _ (α × List Placed)) :=
  fun _ => ⟨.repeats name, fun _ _ _ => rfl⟩

theorem UniformOn.congr (h : UniformOn r us)
    (heq : ∀ stop ts, tokens ts = us → r' stop ts = r stop ts) : UniformOn r' us := by
  obtain ⟨o, ho⟩ := h
  exact ⟨o, fun stop ts hts => (heq stop ts hts).trans (ho stop ts hts)⟩

/-- Tokens in front that are passed over. -/
theorem UniformOn.behind (h : UniformOn r us) (front : List Token)
    (heq : ∀ stop vs ts, tokens vs = front → tokens ts = us → r' stop (vs ++ ts) = r stop ts) :
    UniformOn r' (front ++ us) := by
  obtain ⟨o, ho⟩ := h
  refine ⟨o.behind front.length, fun stop ts hts => ?_⟩
  obtain ⟨vs, ts, rfl, rfl, htail⟩ := tokens_eq_append.1 hts
  rw [heq stop vs ts rfl htail, ho stop ts htail, Outcome.result_behind]
  simp [tokens]

theorem UniformOn.cons (h : UniformOn r us)
    (heq : ∀ stop p ts, tokens ts = us → r' stop (⟨t, p⟩ :: ts) = r stop ts) :
    UniformOn r' (t :: us) := by
  refine h.behind [t] fun stop vs ts hvs hts => ?_
  obtain ⟨p, vs, rfl, hnil⟩ := tokens_eq_cons.1 hvs
  obtain rfl := tokens_eq_nil.1 hnil
  exact heq stop p ts hts

/-- One reader behind the other. -/
theorem UniformOn.bind (hr : UniformOn r us)
    (hk : ∀ a n, (∀ stop ts, tokens ts = us → r stop ts = .ok (a, ts.drop n)) →
      UniformOn (fun stop ts => k stop (a, ts)) (us.drop n)) :
    UniformOn (fun stop ts => r stop ts >>= k stop) us := by
  obtain ⟨o, ho⟩ := hr
  cases o with
  | takes a n =>
    obtain ⟨o, ho'⟩ := hk a n ho
    refine ⟨o.behind n, fun stop ts hts => ?_⟩
    have hdrop : tokens (ts.drop n) = us.drop n := by rw [tokens_drop, hts]
    rw [Outcome.result_behind, ← ho' stop _ hdrop]
    exact congrArg (· >>= _) (ho stop ts hts)
  | blames fault n =>
    exact ⟨.blames fault n, fun stop ts hts => congrArg (· >>= _) (ho stop ts hts)⟩
  | repeats name =>
    exact ⟨.repeats name, fun stop ts hts => congrArg (· >>= _) (ho stop ts hts)⟩

theorem Uniform.bind (hr : Uniform r) (hk : ∀ a, Uniform fun stop ts => k stop (a, ts)) :
    Uniform fun stop ts => r stop ts >>= k stop :=
  fun us => (hr us).bind fun a _ _ => hk a _

/-- A reader that uses up tokens, with a reader behind it that is known on fewer tokens only. -/
theorem UniformOn.bind_shorter (hr : UniformOn r us) (hc : ∀ stop, Consumes (r stop))
    (hk : ∀ a vs, vs.length < us.length → UniformOn (fun stop ts => k stop (a, ts)) vs) :
    UniformOn (fun stop ts => r stop ts >>= k stop) us := by
  refine hr.bind fun a n htakes => hk a _ ?_
  have hlt := hc 0 (htakes 0 (us.map (⟨·, 0⟩)) (by simp [tokens, Function.comp_def]))
  simpa using hlt

/-! ## Readers of one token -/

/-- The reader takes this token from the front or blames it, whatever follows. -/
def Settles (r : Nat → Reader α) (t : Token) : Prop :=
  (∃ a, ∀ stop p ts, r stop (⟨t, p⟩ :: ts) = .ok (a, ts)) ∨
    ∃ fault, ∀ stop p ts, r stop (⟨t, p⟩ :: ts) = .error (faultAt stop fault (⟨t, p⟩ :: ts))

theorem Settles.uniformOn (h : Settles r t) (us : List Token) : UniformOn r (t :: us) := by
  rcases h with ⟨a, h⟩ | ⟨fault, h⟩
  · refine ⟨.takes a 1, fun stop ts hts => ?_⟩
    obtain ⟨p, ts, rfl, -⟩ := tokens_eq_cons.1 hts
    exact h stop p ts
  · refine ⟨.blames fault 0, fun stop ts hts => ?_⟩
    obtain ⟨p, ts, rfl, -⟩ := tokens_eq_cons.1 hts
    exact h stop p ts

theorem uniformOn_nil (fault : SyntaxFault)
    (h : ∀ stop, r stop [] = .error (faultAt stop fault [])) : UniformOn r [] := by
  refine ⟨.blames fault 0, fun stop ts hts => ?_⟩
  obtain rfl := tokens_eq_nil.1 hts
  exact h stop

theorem uniform_of_settles {fault : SyntaxFault}
    (hnil : ∀ stop, r stop [] = .error (faultAt stop fault [])) (h : ∀ t, Settles r t) :
    Uniform r := by
  intro us
  cases us with
  | nil => exact uniformOn_nil fault hnil
  | cons t us => exact (h t).uniformOn us

theorem uniform_integer (fault : SyntaxFault) : Uniform (integer · fault) := by
  refine uniform_of_settles (fun _ => rfl) fun t => ?_
  cases t with
  | word w =>
    cases h : integer? w with
    | some n => exact .inl ⟨n, fun _ _ _ => by simp only [integer, h]⟩
    | none => exact .inr ⟨fault, fun _ _ _ => by simp only [integer, h]⟩
  | _ => exact .inr ⟨fault, fun _ _ _ => rfl⟩

theorem uniform_comparator : Uniform comparator := by
  refine uniform_of_settles (fun _ => rfl) fun t => ?_
  cases h : comparatorOf? t with
  | some c => exact .inl ⟨c, fun _ _ _ => by simp only [comparator, h]⟩
  | none => exact .inr ⟨.comparator, fun _ _ _ => by simp only [comparator, h]⟩

theorem uniform_threshold : Uniform threshold := by
  refine uniform_of_settles (fun _ => rfl) fun t => ?_
  cases t with
  | word w =>
    cases h : number? w with
    | some x =>
      by_cases hx : x.isFinite = true
      · exact .inl ⟨x, fun _ _ _ => by simp only [threshold, h, if_pos hx]⟩
      · exact .inr ⟨.thresholdRange, fun _ _ _ => by simp only [threshold, h, if_neg hx]⟩
    | none => exact .inr ⟨.threshold, fun _ _ _ => by simp only [threshold, h]⟩
  | _ => exact .inr ⟨.threshold, fun _ _ _ => rfl⟩

theorem uniform_moreDimensions : Uniform moreDimensions := by
  refine uniform_of_settles (fun _ => rfl) fun t => ?_
  cases t with
  | comma => exact .inl ⟨true, fun _ _ _ => rfl⟩
  | rightBrace => exact .inl ⟨false, fun _ _ _ => rfl⟩
  | _ => exact .inr ⟨.dimensionEnd, fun _ _ _ => rfl⟩

theorem uniform_closing (f : Formula) :
    Uniform fun stop ts => (closing stop ts).map fun rest => (f, rest.1) := by
  refine uniform_of_settles (fun _ => rfl) fun t => ?_
  cases t with
  | rightParen => exact .inl ⟨f, fun _ _ _ => rfl⟩
  | _ => exact .inr ⟨.closingParenthesis, fun _ _ _ => rfl⟩

/-! ## Metrics -/

theorem exists_words (us : List Token) :
    ∃ ws, ∀ ts, tokens ts = us → words ts = (ws, ts.drop ws.length) := by
  induction us with
  | nil =>
    refine ⟨[], fun ts hts => ?_⟩
    obtain rfl := tokens_eq_nil.1 hts
    rfl
  | cons t us ih =>
    obtain ⟨ws, hws⟩ := ih
    cases t with
    | word w =>
      refine ⟨w :: ws, fun ts hts => ?_⟩
      obtain ⟨p, ts, rfl, htail⟩ := tokens_eq_cons.1 hts
      rw [words, hws ts htail]
      rfl
    | _ =>
      refine ⟨[], fun ts hts => ?_⟩
      obtain ⟨p, ts, rfl, -⟩ := tokens_eq_cons.1 hts
      rfl

/-- Words in a row, at least one. -/
def someWords (fault : SyntaxFault) (stop : Nat) : Reader String := fun ts =>
  match words ts with
  | ([], _) => .error (faultAt stop fault ts)
  | (ws, rest) => .ok (joinWords ws, rest)

theorem uniform_someWords (fault : SyntaxFault) : Uniform (someWords fault) := by
  intro us
  obtain ⟨ws, hws⟩ := exists_words us
  cases ws with
  | nil => exact ⟨.blames fault 0, fun stop ts hts => by simp only [someWords, hws ts hts]; rfl⟩
  | cons w ws =>
    exact ⟨.takes (joinWords (w :: ws)) (w :: ws).length,
      fun stop ts hts => by simp only [someWords, hws ts hts]; rfl⟩

theorem uniform_dimensionValue : Uniform dimensionValue := by
  intro us
  have hwords : UniformOn (someWords .dimensionValue) us := uniform_someWords _ us
  cases us with
  | nil => exact hwords.congr fun stop ts hts => by rw [tokens_eq_nil.1 hts]; rfl
  | cons t us =>
    cases t with
    | quoted q => exact Settles.uniformOn (.inl ⟨q, fun _ _ _ => rfl⟩) us
    | _ =>
      refine hwords.congr fun stop ts hts => ?_
      obtain ⟨p, ts, rfl, -⟩ := tokens_eq_cons.1 hts
      rfl

/-- The sign between the name of a dimension and its value. -/
def equalsSign (stop : Nat) : Reader Unit
  | ⟨.equals, _⟩ :: ts => .ok ((), ts)
  | ts => .error (faultAt stop .dimensionEquals ts)

theorem uniform_equalsSign : Uniform equalsSign := by
  refine uniform_of_settles (fun _ => rfl) fun t => ?_
  cases t with
  | equals => exact .inl ⟨(), fun _ _ _ => rfl⟩
  | _ => exact .inr ⟨.dimensionEquals, fun _ _ _ => rfl⟩

theorem dimension_eq (stop : Nat) (ts : List Placed) :
    dimension stop ts = (do
      let (name, ts) ← someWords .dimensionName stop ts
      let (_, ts) ← equalsSign stop ts
      let (value, ts) ← dimensionValue stop ts
      .ok ((name, value), ts)) := by
  simp only [dimension, someWords]
  generalize words ts = found
  obtain ⟨ws, rest⟩ := found
  cases ws with
  | nil => rfl
  | cons w ws =>
    cases rest with
    | nil => rfl
    | cons t rest =>
      obtain ⟨t, p⟩ := t
      cases t with
      | equals =>
        simp only [equalsSign, bind, Except.bind]
        cases dimensionValue stop rest <;> rfl
      | _ => rfl

theorem uniform_dimension : Uniform dimension := by
  intro us
  refine UniformOn.congr ?_ fun stop ts _ => dimension_eq stop ts
  exact (uniform_someWords .dimensionName).bind (fun name => uniform_equalsSign.bind fun _ =>
    uniform_dimensionValue.bind fun value => uniform_ok (name, value)) us

/-- What the reader of dimensions does behind one of them. -/
def dimensionsBehind (found : Dimensions) (d : Dimension) (stop : Nat) : Reader Dimensions :=
  fun ts =>
    if found.contains d.1 then .error (.duplicateDimension d.1)
    else moreDimensions stop ts >>= fun y =>
      if y.1 then dimensions stop (found.insert d.1 d.2) y.2 else .ok (found.insert d.1 d.2, y.2)

theorem dimensions_bind (stop : Nat) (found : Dimensions) (ts : List Placed) :
    dimensions stop found ts =
      dimension stop ts >>= fun x => dimensionsBehind found x.1 stop x.2 := by
  rw [dimensions]
  split
  · next e he => rw [he]; rfl
  · next name value rest he =>
    rw [he]
    simp only [bind, Except.bind, dimensionsBehind]
    split
    · rfl
    · split
      · next e hm => rw [hm]
      · next rest' hm => rw [hm]; rfl
      · next rest' hm => rw [hm]; rfl

theorem uniform_dimensions (found : Dimensions) : Uniform (dimensions · found) := by
  intro us
  induction hn : us.length using Nat.strongRecOn generalizing found us with
  | ind n ih =>
    -- a further dimension is read from what is left behind this one and its comma
    refine UniformOn.congr ?_ fun stop ts _ => dimensions_bind stop found ts
    refine (uniform_dimension us).bind_shorter (fun _ => dimension_length) fun d vs hvs => ?_
    by_cases hd : found.contains d.1 = true
    · simp only [dimensionsBehind, if_pos hd]
      exact uniform_duplicate d.1 vs
    · simp only [dimensionsBehind, if_neg hd]
      refine (uniform_moreDimensions vs).bind_shorter (fun _ => moreDimensions_length)
        fun more ws hws => ?_
      cases more with
      | true => exact ih ws.length (by omega) _ ws rfl
      | false => exact uniform_ok _ ws

theorem uniform_dimensioned (name : String) :
    Uniform fun stop ts => (dimensions stop .empty ts).map fun x => (Metric.mk name x.1, x.2) := by
  intro us
  have hread : Uniform fun stop ts => dimensions stop .empty ts >>= fun x =>
      .ok (Metric.mk name x.1, x.2) := (uniform_dimensions .empty).bind fun ds =>
        uniform_ok (Metric.mk name ds)
  refine (hread us).congr fun stop ts _ => ?_
  cases dimensions stop .empty ts <;> rfl

theorem exists_leading {t : Token} (h : ¬ ∀ u ∈ us.head?, ¬ u = t) : ∃ vs, us = t :: vs := by
  simpa [List.head?_eq_some_iff] using h

theorem uniformOn_metric_word (name : String) (us : List Token) :
    UniformOn metric (.word name :: us) := by
  by_cases hleft : ∀ t ∈ us.head?, ¬ t = .leftBrace
  · refine (uniform_ok (Metric.named name) us).cons fun stop p ts hts => ?_
    exact metric_bare name p (notFirst_iff.2 (hts ▸ hleft))
  · obtain ⟨us, rfl⟩ := exists_leading hleft
    by_cases hright : ∀ t ∈ us.head?, ¬ t = .rightBrace
    · refine (uniform_dimensioned name us).behind [.word name, .leftBrace]
        fun stop vs ts hvs hts => ?_
      obtain ⟨p, ts₁, rfl, h₁⟩ := tokens_eq_cons.1 hvs
      obtain ⟨q, ts₂, rfl, h₂⟩ := tokens_eq_cons.1 h₁
      obtain rfl := tokens_eq_nil.1 h₂
      exact metric_braces name p q (notFirst_iff.2 (hts ▸ hright))
    · obtain ⟨us, rfl⟩ := exists_leading hright
      refine (uniform_ok (Metric.named name) us).behind
        [.word name, .leftBrace, .rightBrace] fun stop vs ts hvs _ => ?_
      obtain ⟨p, ts₁, rfl, h₁⟩ := tokens_eq_cons.1 hvs
      obtain ⟨q, ts₂, rfl, h₂⟩ := tokens_eq_cons.1 h₁
      obtain ⟨r, ts₃, rfl, h₃⟩ := tokens_eq_cons.1 h₂
      obtain rfl := tokens_eq_nil.1 h₃
      rfl

theorem uniform_metric : Uniform metric := by
  intro us
  cases us with
  | nil => exact uniformOn_nil .metricName fun _ => rfl
  | cons t us =>
    cases t with
    | word name => exact uniformOn_metric_word name us
    | _ => exact Settles.uniformOn (.inr ⟨.metricName, fun _ _ _ => rfl⟩) us

end MetricAlarm.Grammar
