import MetricAlarm.Token.Lexer

/-!
# Reading metrics

    metric    := WORD [ "{" [ dimension ( "," dimension )* ] "}" ]
    dimension := WORD+ "=" ( QUOTED | WORD+ )

A reader takes the tokens in front and returns what they mean with the tokens behind them. Several
words in a row are one name or value, joined by single spaces. Main statement: `metric_length`,
a reader that succeeds uses up tokens.
-/

namespace MetricAlarm.Grammar

/-- A reader of `α`. -/
abbrev Reader (α : Type) := List Placed → Except ExpressionError (α × List Placed)

/-- A fault at the next token; `stop` is the length of the text, where its end is reported. -/
def faultAt (stop : Nat) (fault : SyntaxFault) : List Placed → ExpressionError
  | [] => .malformedText stop "<EOF>" fault
  | t :: _ => .malformedText t.position t.token.text fault

/-- The words in front. -/
def words : List Placed → List String × List Placed
  | ⟨.word w, _⟩ :: ts => ((w :: (words ts).1), (words ts).2)
  | ts => ([], ts)

def joinWords (ws : List String) : String := " ".intercalate ws

/-- The value of a dimension, behind its equals sign. -/
def dimensionValue (stop : Nat) : Reader String
  | ⟨.quoted q, _⟩ :: ts => .ok (q, ts)
  | ts =>
    match words ts with
    | ([], _) => .error (faultAt stop .dimensionValue ts)
    | (ws, rest) => .ok (joinWords ws, rest)

def dimension (stop : Nat) : Reader Dimension := fun ts =>
  match words ts with
  | ([], _) => .error (faultAt stop .dimensionName ts)
  | (ws, ⟨.equals, _⟩ :: rest) =>
    (dimensionValue stop rest).map fun (v, rest) => ((joinWords ws, v), rest)
  | (_, rest) => .error (faultAt stop .dimensionEquals rest)

/-- What follows a dimension: a comma and so another one, or the end. -/
def moreDimensions (stop : Nat) : Reader Bool
  | ⟨.comma, _⟩ :: ts => .ok (true, ts)
  | ⟨.rightBrace, _⟩ :: ts => .ok (false, ts)
  | ts => .error (faultAt stop .dimensionEnd ts)

theorem length_words (ts : List Placed) :
    (words ts).2.length + (words ts).1.length = ts.length := by
  fun_induction words ts with
  | case1 w p ts ih => simp only [List.length_cons]; omega
  | case2 ts => simp

theorem map_eq_ok {ε α β : Type} {x : Except ε α} {f : α → β} {b : β} (h : x.map f = .ok b) :
    ∃ a, x = .ok a ∧ f a = b := by
  cases x with
  | error e => cases h
  | ok a => exact ⟨a, rfl, Except.ok.inj h⟩

theorem dimensionValue_length {stop : Nat} {ts rest : List Placed} {v : String}
    (h : dimensionValue stop ts = .ok (v, rest)) : rest.length < ts.length := by
  unfold dimensionValue at h
  split at h
  · simp only [Except.ok.injEq, Prod.mk.injEq] at h
    simp [h.2]
  · split at h
    · simp at h
    · next ws r hne hw =>
      simp only [Except.ok.injEq, Prod.mk.injEq] at h
      have hlen := length_words ts
      rw [hw] at hlen
      have hws : ws ≠ [] := fun h0 => hne h0
      have := List.length_pos_iff.2 hws
      rw [← h.2]
      simp only at hlen
      omega

theorem dimension_length {stop : Nat} {ts rest : List Placed} {d : Dimension}
    (h : dimension stop ts = .ok (d, rest)) : rest.length < ts.length := by
  unfold dimension at h
  split at h
  · simp at h
  · next ws p r hne hw =>
    have hlen := length_words ts
    rw [hw] at hlen
    obtain ⟨⟨v, r'⟩, hv, hvr⟩ := map_eq_ok h
    obtain ⟨-, rfl⟩ := Prod.mk.inj hvr
    have := dimensionValue_length hv
    simp only [List.length_cons] at hlen
    omega
  · simp at h

theorem moreDimensions_length {stop : Nat} {ts rest : List Placed} {b : Bool}
    (h : moreDimensions stop ts = .ok (b, rest)) : rest.length < ts.length := by
  unfold moreDimensions at h
  split at h
  · simp only [Except.ok.injEq, Prod.mk.injEq] at h; simp [h.2]
  · simp only [Except.ok.injEq, Prod.mk.injEq] at h; simp [h.2]
  · simp at h

/-- The dimensions up to the closing brace, added to those found before. -/
def dimensions (stop : Nat) (found : Dimensions) (ts : List Placed) :
    Except ExpressionError (Dimensions × List Placed) :=
  match _h : dimension stop ts with
  | .error e => .error e
  | .ok ((name, value), rest) =>
    if found.contains name then .error (.duplicateDimension name)
    else
      match _h' : moreDimensions stop rest with
      | .error e => .error e
      | .ok (true, rest) => dimensions stop (found.insert name value) rest
      | .ok (false, rest) => .ok (found.insert name value, rest)
termination_by ts.length
decreasing_by
  have := dimension_length _h
  have := moreDimensions_length _h'
  omega

theorem dimensions_length {stop : Nat} {found ds : Dimensions} {ts rest : List Placed}
    (h : dimensions stop found ts = .ok (ds, rest)) : rest.length < ts.length := by
  fun_induction dimensions stop found ts with
  | case1 => simp at h
  | case2 => simp at h
  | case3 => simp at h
  | case4 found ts name value r hd hc r' hm ih =>
    have := dimension_length hd
    have := moreDimensions_length hm
    have := ih h
    omega
  | case5 found ts name value r hd hc r' hm =>
    have := dimension_length hd
    have := moreDimensions_length hm
    simp only [Except.ok.injEq, Prod.mk.injEq] at h
    rw [← h.2]
    omega

def metric (stop : Nat) : Reader Metric
  | ⟨.word name, _⟩ :: ⟨.leftBrace, _⟩ :: ⟨.rightBrace, _⟩ :: ts => .ok (.named name, ts)
  | ⟨.word name, _⟩ :: ⟨.leftBrace, _⟩ :: ts =>
    (dimensions stop .empty ts).map fun (ds, rest) => (⟨name, ds⟩, rest)
  | ⟨.word name, _⟩ :: ts => .ok (.named name, ts)
  | ts => .error (faultAt stop .metricName ts)

theorem metric_length {stop : Nat} {ts rest : List Placed} {m : Metric}
    (h : metric stop ts = .ok (m, rest)) : rest.length < ts.length := by
  unfold metric at h
  split at h
  · simp only [Except.ok.injEq, Prod.mk.injEq] at h
    simp only [List.length_cons, h.2]
    omega
  · next name _ _ ts _ =>
    obtain ⟨⟨ds, r⟩, hd, hdr⟩ := map_eq_ok h
    obtain ⟨-, rfl⟩ := Prod.mk.inj hdr
    have := dimensions_length hd
    simp only [List.length_cons]
    omega
  · simp only [Except.ok.injEq, Prod.mk.injEq] at h
    simp [h.2]
  · simp at h

end MetricAlarm.Grammar
