import MetricAlarm.Decimal.Reading
import MetricAlarm.Grammar.Metric

/-!
# Reading conditions

    comparison := measured relop threshold [ "times" INTEGER ]
                | threshold relop measured [ "times" INTEGER ]
    measured   := function "(" metric ( "," argument )* ")" | metric
    argument   := INTEGER | "deterministic"

The second form is taken exactly when the first token looks like a number and the second is a
comparator; the comparator is then mirrored. Keywords are words that are recognised by place.
Main statement: `condition_length`, reading a condition uses up tokens.
-/

namespace MetricAlarm.Grammar

/-- An integer that fits thirty-two bits, in ASCII digits. -/
def integer? (w : String) : Option UInt32 :=
  match Text.natural? w.toList with
  | some n => if n < UInt32.size then some (UInt32.ofNat n) else none
  | none => none

def integer (stop : Nat) (fault : SyntaxFault) : Reader UInt32
  | ⟨.word w, p⟩ :: ts =>
    match integer? w with
    | some n => .ok (n, ts)
    | none => .error (faultAt stop fault (⟨.word w, p⟩ :: ts))
  | ts => .error (faultAt stop fault ts)

/-- The comparator of a sign or of a word in any case. -/
def comparatorOf? : Token → Option Comparator
  | .less => some .lt
  | .lessEqual => some .lte
  | .greater => some .gt
  | .greaterEqual => some .gte
  | .word w => Comparator.ofText? w
  | _ => none

def comparator (stop : Nat) : Reader Comparator
  | [] => .error (faultAt stop .comparator [])
  | t :: ts =>
    match comparatorOf? t.token with
    | some c => .ok (c, ts)
    | none => .error (faultAt stop .comparator (t :: ts))

/-- A word of digits may look like a number and yet have no value: only ASCII digits do. -/
def number? (w : String) : Option Float :=
  if looksNumeric w then Decimal.readPlain? w.toList else none

def threshold (stop : Nat) : Reader Float
  | ⟨.word w, p⟩ :: ts =>
    match number? w with
    | some x =>
      if x.isFinite then .ok (x, ts)
      else .error (faultAt stop .thresholdRange (⟨.word w, p⟩ :: ts))
    | none => .error (faultAt stop .threshold (⟨.word w, p⟩ :: ts))
  | ts => .error (faultAt stop .threshold ts)

/-! ## Functions and their arguments -/

/-- What the arguments of a function have given so far. -/
structure Arguments where
  period : Option UInt32
  deterministic : Bool

def Arguments.none : Arguments := ⟨Option.none, false⟩

def isKeyword (keyword w : String) : Bool := Text.sameIgnoringCase w keyword

/-- The arguments behind the metric, up to the closing parenthesis. -/
def arguments (stop : Nat) (given : Arguments) : Reader Arguments
  | ⟨.comma, _⟩ :: ⟨.word w, p⟩ :: ts =>
    if isKeyword "deterministic" w then
      if given.deterministic then
        .error (faultAt stop .repeatedDeterministic (⟨.word w, p⟩ :: ts))
      else arguments stop { given with deterministic := true } ts
    else if looksNatural w then
      if given.period.isSome then .error (faultAt stop .repeatedPeriod (⟨.word w, p⟩ :: ts))
      else
        match integer? w with
        | some n => arguments stop { given with period := some n } ts
        | none => .error (faultAt stop .period (⟨.word w, p⟩ :: ts))
    else .error (faultAt stop .argument (⟨.word w, p⟩ :: ts))
  | ⟨.comma, _⟩ :: ts => .error (faultAt stop .argument ts)
  | ⟨.rightParen, _⟩ :: ts => .ok (given, ts)
  | ts => .error (faultAt stop .functionEnd ts)

/-- A metric with what is measured of it; without a function the comparator decides that. -/
structure Measured where
  function : Option Aggregate
  metric : Metric
  arguments : Arguments

/-- The function that a name in front of an opening parenthesis calls. -/
def call? : List Placed → Option (Aggregate × List Placed)
  | ⟨.word w, _⟩ :: ⟨.leftParen, _⟩ :: ts => (Aggregate.ofName? w).map (·, ts)
  | _ => none

def measured (stop : Nat) : Reader Measured := fun ts =>
  match call? ts with
  | some (f, ts) => do
    let (m, ts) ← metric stop ts
    let (given, ts) ← arguments stop .none ts
    .ok (⟨some f, m, given⟩, ts)
  | none => do
    let (m, ts) ← metric stop ts
    .ok (⟨none, m, .none⟩, ts)

/-! ## Conditions -/

/-- Whether the threshold stands in front. -/
def startsWithThreshold : List Placed → Bool
  | ⟨.word w, _⟩ :: t :: _ => looksNumeric w && (comparatorOf? t.token).isSome
  | _ => false

/-- The two sides of a comparison, the measured one on the left. -/
structure Comparison where
  measured : Measured
  comparator : Comparator
  threshold : Float

def comparison (stop : Nat) : Reader Comparison := fun ts =>
  if startsWithThreshold ts then do
    let (x, ts) ← threshold stop ts
    let (c, ts) ← comparator stop ts
    let (m, ts) ← measured stop ts
    .ok (⟨m, c.mirror, x⟩, ts)
  else do
    let (m, ts) ← measured stop ts
    let (c, ts) ← comparator stop ts
    let (x, ts) ← threshold stop ts
    .ok (⟨m, c, x⟩, ts)

/-- The number of periods behind `times`, one without it. -/
def periods (stop : Nat) : Reader UInt32
  | ⟨.word w, p⟩ :: ts =>
    if isKeyword "times" w then integer stop .periods ts
    else .ok (Condition.defaultPeriods, ⟨.word w, p⟩ :: ts)
  | ts => .ok (Condition.defaultPeriods, ts)

def Comparison.condition (c : Comparison) (periods : UInt32) : Condition where
  function := c.measured.function.getD (Condition.defaultFunction c.comparator)
  metric := c.measured.metric
  comparator := c.comparator
  threshold := c.threshold
  period := c.measured.arguments.period.getD Condition.defaultPeriod
  periods := periods
  deterministic := c.measured.arguments.deterministic

def condition (stop : Nat) : Reader Condition := fun ts => do
  let (c, ts) ← comparison stop ts
  let (n, ts) ← periods stop ts
  .ok (c.condition n, ts)

/-! ## Readers use up tokens -/

/-- A reader that succeeds leaves a shorter list. -/
def Consumes {α : Type} (r : Reader α) : Prop :=
  ∀ {ts rest : List Placed} {a : α}, r ts = .ok (a, rest) → rest.length < ts.length

theorem bind_eq_ok {ε α β : Type} {x : Except ε α} {f : α → Except ε β} {b : β}
    (h : x >>= f = .ok b) : ∃ a, x = .ok a ∧ f a = .ok b := by
  cases x with
  | error e => cases h
  | ok a => exact ⟨a, rfl, h⟩

theorem integer_length {stop : Nat} {fault : SyntaxFault} : Consumes (integer stop fault) := by
  intro ts rest n h
  unfold integer at h
  split at h
  · split at h
    · simp only [Except.ok.injEq, Prod.mk.injEq] at h; simp [h.2]
    · simp at h
  · simp at h

theorem comparator_length {stop : Nat} : Consumes (comparator stop) := by
  intro ts rest c h
  unfold comparator at h
  split at h
  · simp at h
  · split at h
    · simp only [Except.ok.injEq, Prod.mk.injEq] at h; simp [h.2]
    · simp at h

theorem threshold_length {stop : Nat} : Consumes (threshold stop) := by
  intro ts rest x h
  unfold threshold at h
  split at h
  · split at h
    · split at h
      · simp only [Except.ok.injEq, Prod.mk.injEq] at h; simp [h.2]
      · simp at h
    · simp at h
  · simp at h

theorem arguments_length {stop : Nat} {given : Arguments} : Consumes (arguments stop given) := by
  intro ts rest g h
  fun_induction arguments stop given ts with
  | case1 => simp at h
  | case2 given _ w p ts _ _ ih => have := ih h; simp only [List.length_cons]; omega
  | case3 => simp at h
  | case4 given _ w p ts _ _ _ n _ ih => have := ih h; simp only [List.length_cons]; omega
  | case5 => simp at h
  | case6 => simp at h
  | case7 => simp at h
  | case8 => simp only [Except.ok.injEq, Prod.mk.injEq] at h; simp [h.2]
  | case9 => simp at h

theorem call_length {ts rest : List Placed} {f : Aggregate} (h : call? ts = some (f, rest)) :
    rest.length < ts.length := by
  unfold call? at h
  split at h
  · simp only [Option.map_eq_some_iff, Prod.mk.injEq] at h
    obtain ⟨_, _, _, rfl⟩ := h
    simp only [List.length_cons]
    omega
  · simp at h

theorem measured_length {stop : Nat} : Consumes (measured stop) := by
  intro ts rest m h
  unfold measured at h
  split at h
  · next f ts' hc =>
    obtain ⟨⟨m, ts₁⟩, hm, h⟩ := bind_eq_ok h
    obtain ⟨⟨g, ts₂⟩, hg, h⟩ := bind_eq_ok h
    have := call_length hc
    have := metric_length hm
    have := arguments_length hg
    simp only [Except.ok.injEq, Prod.mk.injEq] at h
    rw [← h.2]
    omega
  · obtain ⟨⟨m, ts₁⟩, hm, h⟩ := bind_eq_ok h
    have := metric_length hm
    simp only [Except.ok.injEq, Prod.mk.injEq] at h
    rw [← h.2]
    omega

theorem comparison_length {stop : Nat} : Consumes (comparison stop) := by
  intro ts rest c h
  unfold comparison at h
  split at h
  · obtain ⟨⟨x, ts₁⟩, hx, h⟩ := bind_eq_ok h
    obtain ⟨⟨c, ts₂⟩, hc, h⟩ := bind_eq_ok h
    obtain ⟨⟨m, ts₃⟩, hm, h⟩ := bind_eq_ok h
    have := threshold_length hx
    have := comparator_length hc
    have := measured_length hm
    simp only [Except.ok.injEq, Prod.mk.injEq] at h
    rw [← h.2]
    omega
  · obtain ⟨⟨m, ts₁⟩, hm, h⟩ := bind_eq_ok h
    obtain ⟨⟨c, ts₂⟩, hc, h⟩ := bind_eq_ok h
    obtain ⟨⟨x, ts₃⟩, hx, h⟩ := bind_eq_ok h
    have := threshold_length hx
    have := comparator_length hc
    have := measured_length hm
    simp only [Except.ok.injEq, Prod.mk.injEq] at h
    rw [← h.2]
    omega

theorem periods_length {stop : Nat} {ts rest : List Placed} {n : UInt32}
    (h : periods stop ts = .ok (n, rest)) : rest.length ≤ ts.length := by
  unfold periods at h
  split at h
  · split at h
    · have := integer_length h
      simp only [List.length_cons]
      omega
    · simp only [Except.ok.injEq, Prod.mk.injEq] at h; simp [← h.2]
  · simp only [Except.ok.injEq, Prod.mk.injEq] at h; simp [h.2]

theorem condition_length {stop : Nat} : Consumes (condition stop) := by
  intro ts rest c h
  obtain ⟨⟨c, ts₁⟩, hc, h⟩ := bind_eq_ok h
  obtain ⟨⟨n, ts₂⟩, hn, h⟩ := bind_eq_ok h
  have := comparison_length hc
  have := periods_length hn
  simp only [Except.ok.injEq, Prod.mk.injEq] at h
  rw [← h.2]
  omega

end MetricAlarm.Grammar
