import MetricAlarm.Formula.Basic
import MetricAlarm.Grammar.Condition

/-!
# Reading formulas

    disjunction := conjunction ( OR conjunction )*
    conjunction := primary ( AND primary )*
    primary     := "(" disjunction ")" | condition

Connectives of one kind associate to the left and `and` binds tighter than `or`. The readers call
each other on fewer and fewer tokens, so each returns its rest with the proof that it is shorter.
-/

namespace MetricAlarm.Grammar

/-- Whether a token spells the connective: its sign, or its name in any case. -/
def spells (c : Connective) : Token → Bool
  | .and => c == .and
  | .or => c == .or
  | .word w => Text.sameIgnoringCase w c.name
  | _ => false

/-- Token lists shorter than `ts`. -/
abbrev Shorter (ts : List Placed) := { rest : List Placed // rest.length < ts.length }

/-- Token lists no longer than `ts`. -/
abbrev Remainder (ts : List Placed) := { rest : List Placed // rest.length ≤ ts.length }

def closing (stop : Nat) : (ts : List Placed) → Except ExpressionError (Shorter ts)
  | ⟨.rightParen, _⟩ :: ts => .ok ⟨ts, Nat.lt_succ_self _⟩
  | ts => .error (faultAt stop .closingParenthesis ts)

/-- A condition as a formula. -/
def single (stop : Nat) (ts : List Placed) : Except ExpressionError (Formula × Shorter ts) :=
  match h : condition stop ts with
  | .error e => .error e
  | .ok (c, rest) => .ok (.condition c, ⟨rest, condition_length h⟩)

mutual

def disjunction (stop : Nat) (ts : List Placed) : Except ExpressionError (Formula × Shorter ts) :=
  match conjunction stop ts with
  | .error e => .error e
  | .ok (f, ⟨rest, h⟩) =>
    match moreDisjuncts stop f rest with
    | .error e => .error e
    | .ok (g, ⟨rest', h'⟩) => .ok (g, ⟨rest', Nat.lt_of_le_of_lt h' h⟩)
termination_by (ts.length, 3)

def moreDisjuncts (stop : Nat) (left : Formula) (ts : List Placed) :
    Except ExpressionError (Formula × Remainder ts) :=
  match ts with
  | [] => .ok (left, ⟨[], Nat.le_refl _⟩)
  | t :: ts =>
    if spells .or t.token then
      match conjunction stop ts with
      | .error e => .error e
      | .ok (right, ⟨rest, h⟩) =>
        match moreDisjuncts stop (.join .or left right) rest with
        | .error e => .error e
        | .ok (g, ⟨rest', h'⟩) =>
          .ok (g, ⟨rest', Nat.le_succ_of_le (Nat.le_trans h' (Nat.le_of_lt h))⟩)
    else .ok (left, ⟨t :: ts, Nat.le_refl _⟩)
termination_by (ts.length, 0)

def conjunction (stop : Nat) (ts : List Placed) : Except ExpressionError (Formula × Shorter ts) :=
  match primary stop ts with
  | .error e => .error e
  | .ok (f, ⟨rest, h⟩) =>
    match moreConjuncts stop f rest with
    | .error e => .error e
    | .ok (g, ⟨rest', h'⟩) => .ok (g, ⟨rest', Nat.lt_of_le_of_lt h' h⟩)
termination_by (ts.length, 2)

def moreConjuncts (stop : Nat) (left : Formula) (ts : List Placed) :
    Except ExpressionError (Formula × Remainder ts) :=
  match ts with
  | [] => .ok (left, ⟨[], Nat.le_refl _⟩)
  | t :: ts =>
    if spells .and t.token then
      match primary stop ts with
      | .error e => .error e
      | .ok (right, ⟨rest, h⟩) =>
        match moreConjuncts stop (.join .and left right) rest with
        | .error e => .error e
        | .ok (g, ⟨rest', h'⟩) =>
          .ok (g, ⟨rest', Nat.le_succ_of_le (Nat.le_trans h' (Nat.le_of_lt h))⟩)
    else .ok (left, ⟨t :: ts, Nat.le_refl _⟩)
termination_by (ts.length, 0)

def primary (stop : Nat) (ts : List Placed) : Except ExpressionError (Formula × Shorter ts) :=
  match ts with
  | ⟨.leftParen, p⟩ :: ts =>
    match disjunction stop ts with
    | .error e => .error e
    | .ok (f, ⟨rest, h⟩) =>
      match closing stop rest with
      | .error e => .error e
      | .ok ⟨rest', h'⟩ => .ok (f, ⟨rest', Nat.lt_succ_of_lt (Nat.lt_trans h' h)⟩)
  | ts => single stop ts
termination_by (ts.length, 1)

end

/-- The formula of a whole token list. -/
def parse (stop : Nat) (ts : List Placed) : Except ExpressionError Formula :=
  if ts = [] then .error (.malformedText 0 "<EOF>" .emptyExpression)
  else
    match disjunction stop ts with
    | .error e => .error e
    | .ok (f, ⟨[], _⟩) => .ok f
    | .ok (_, ⟨rest, _⟩) => .error (faultAt stop .trailingToken rest)

/-- The formula of a text. -/
def read (text : String) : Except ExpressionError Formula := do
  let ts ← Token.lex text
  parse text.length ts

end MetricAlarm.Grammar
