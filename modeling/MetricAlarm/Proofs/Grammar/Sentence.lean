import MetricAlarm.Grammar.Formula

/-!
# The grammar as a relation

    disjunction := conjunction | disjunction OR conjunction
    conjunction := primary | conjunction AND primary
    primary     := "(" disjunction ")" | condition
    condition   := comparison [ "times" INTEGER ]
    comparison  := measured relop threshold | threshold relop measured
    measured    := function "(" metric ( "," argument )* ")" | metric
    argument    := INTEGER | "deterministic"
    metric      := WORD [ "{" [ dimension ( "," dimension )* ] "}" ]
    dimension   := WORD+ "=" ( QUOTED | WORD+ )

Each phrase relates the tokens it is written with to what it means. Nothing here says how a phrase
is found. `Sentence` is the whole grammar; what a context-free rule cannot say is said beside it:
dimension names are distinct, an argument is given once, and a comparison that could start with its
threshold does.
-/

namespace MetricAlarm.Grammar

/-! ## Words and signs with a meaning -/

/-- A comparator is its sign, or its name in any case. (A word of a text is never a sign.) -/
inductive Relop : Token → Comparator → Prop
  | less : Relop .less .lt
  | lessEqual : Relop .lessEqual .lte
  | greater : Relop .greater .gt
  | greaterEqual : Relop .greaterEqual .gte
  | word {w : String} {c : Comparator} :
      w = c.symbol ∨ Text.sameIgnoringCase w c.word = true → Relop (.word w) c

/-- A connective is its sign, or its name in any case. -/
inductive Junction : Token → Connective → Prop
  | and : Junction .and .and
  | or : Junction .or .or
  | word {w : String} {c : Connective} :
      Text.sameIgnoringCase w c.name = true → Junction (.word w) c

/-- A word that looks like a number and has a finite value. -/
structure IsThreshold (w : String) (x : Float) : Prop where
  numeric : looksNumeric w = true
  value : Decimal.readPlain? w.toList = some x
  finite : x.isFinite = true

/-- ASCII digits whose value fits thirty-two bits. -/
structure IsInteger (w : String) (n : UInt32) : Prop where
  nonempty : w.toList ≠ []
  digits : ∀ c ∈ w.toList, c.isDigit = true
  value : Text.digitsValue w.toList = n.toNat

/-! ## Metrics -/

/-- Words in a row. -/
def wordTokens (ws : List String) : List Token := ws.map .word

inductive DimensionPhrase : List Token → Dimension → Prop
  | quoted {ws : List String} {q : String} : ws ≠ [] →
      DimensionPhrase (wordTokens ws ++ [.equals, .quoted q]) (joinWords ws, q)
  | words {ws vs : List String} : ws ≠ [] → vs ≠ [] →
      DimensionPhrase (wordTokens ws ++ .equals :: wordTokens vs) (joinWords ws, joinWords vs)

/-- Dimensions with commas between them, at least one. -/
inductive DimensionList : List Token → List Dimension → Prop
  | one {ts : List Token} {d : Dimension} : DimensionPhrase ts d → DimensionList ts [d]
  | more {ts us : List Token} {d : Dimension} {ds : List Dimension} :
      DimensionPhrase ts d → DimensionList us ds → DimensionList (ts ++ .comma :: us) (d :: ds)

inductive MetricPhrase : List Token → Metric → Prop
  | bare (name : String) : MetricPhrase [.word name] (.named name)
  | empty (name : String) : MetricPhrase [.word name, .leftBrace, .rightBrace] (.named name)
  | dimensions (name : String) {ts : List Token} {ds : List Dimension} :
      DimensionList ts ds → (ds.map Prod.fst).Nodup →
      MetricPhrase (.word name :: .leftBrace :: (ts ++ [.rightBrace])) ⟨name, .ofList ds⟩

/-! ## Functions -/

inductive Argument
  | period (n : UInt32)
  | deterministic
  deriving DecidableEq

def Argument.period? : Argument → Option UInt32
  | .period n => some n
  | .deterministic => none

inductive ArgumentPhrase : Token → Argument → Prop
  | period {w : String} {n : UInt32} : IsInteger w n → ArgumentPhrase (.word w) (.period n)
  | deterministic {w : String} : Text.sameIgnoringCase w "deterministic" = true →
      ArgumentPhrase (.word w) .deterministic

/-- Arguments, a comma in front of each. -/
inductive ArgumentList : List Token → List Argument → Prop
  | nil : ArgumentList [] []
  | cons {t : Token} {a : Argument} {ts : List Token} {as : List Argument} :
      ArgumentPhrase t a → ArgumentList ts as → ArgumentList (.comma :: t :: ts) (a :: as)

/-- What arguments say, each being given at most once. -/
structure Says (as : List Argument) (given : Arguments) : Prop where
  period : as.filterMap Argument.period? = given.period.toList
  deterministic : as.count .deterministic = given.deterministic.toNat

inductive MeasuredPhrase : List Token → Measured → Prop
  | call {w : String} {f : Aggregate} {ts us : List Token} {m : Metric} {as : List Argument}
      {given : Arguments} : Text.sameIgnoringCase w f.name = true → MetricPhrase ts m →
      ArgumentList us as → Says as given →
      MeasuredPhrase (.word w :: .leftParen :: (ts ++ us ++ [.rightParen])) ⟨some f, m, given⟩
  | bare {ts : List Token} {m : Metric} : MetricPhrase ts m → MeasuredPhrase ts ⟨none, m, .none⟩

/-! ## Conditions -/

/-- The first token could be a threshold, and the second is a comparator. -/
def ThresholdFirst (ts : List Token) : Prop :=
  ∃ w t us c, ts = .word w :: t :: us ∧ looksNumeric w = true ∧ Relop t c

inductive ComparisonPhrase : List Token → Comparison → Prop
  | direct {ts : List Token} {t : Token} {w : String} {m : Measured} {c : Comparator} {x : Float} :
      MeasuredPhrase ts m → Relop t c → IsThreshold w x →
      ¬ ThresholdFirst (ts ++ [t, .word w]) → ComparisonPhrase (ts ++ [t, .word w]) ⟨m, c, x⟩
  | reversed {ts : List Token} {t : Token} {w : String} {m : Measured} {c : Comparator}
      {x : Float} : IsThreshold w x → Relop t c → MeasuredPhrase ts m →
      ComparisonPhrase (.word w :: t :: ts) ⟨m, c.mirror, x⟩

/-- The condition of a comparison that holds for some periods. A period takes a minute unless one
is given, and of a bare metric it is the extreme value on the far side of the comparator that
counts. -/
def Comparison.meaning (c : Comparison) (periods : UInt32) : Condition where
  function := c.measured.function.getD <|
    match c.comparator with
    | .gt | .gte => .max
    | .lt | .lte => .min
  metric := c.measured.metric
  comparator := c.comparator
  threshold := c.threshold
  period := c.measured.arguments.period.getD 60
  periods := periods
  deterministic := c.measured.arguments.deterministic

inductive ConditionPhrase : List Token → Condition → Prop
  | once {ts : List Token} {c : Comparison} : ComparisonPhrase ts c →
      ConditionPhrase ts (c.meaning 1)
  | times {ts : List Token} {c : Comparison} {w v : String} {n : UInt32} :
      ComparisonPhrase ts c → Text.sameIgnoringCase w "times" = true → IsInteger v n →
      ConditionPhrase (ts ++ [.word w, .word v]) (c.meaning n)

/-! ## Formulas -/

/-- How tightly a phrase binds. -/
inductive Level
  | primary
  | conjunction
  | disjunction

/-- Formulas by level; connectives of one kind associate to the left. -/
inductive FormulaPhrase : Level → List Token → Formula → Prop
  | condition {ts : List Token} {c : Condition} : ConditionPhrase ts c →
      FormulaPhrase .primary ts (.condition c)
  | parentheses {ts : List Token} {f : Formula} : FormulaPhrase .disjunction ts f →
      FormulaPhrase .primary (.leftParen :: (ts ++ [.rightParen])) f
  | conjunct {ts : List Token} {f : Formula} : FormulaPhrase .primary ts f →
      FormulaPhrase .conjunction ts f
  | and {ts us : List Token} {t : Token} {f g : Formula} : FormulaPhrase .conjunction ts f →
      Junction t .and → FormulaPhrase .primary us g →
      FormulaPhrase .conjunction (ts ++ t :: us) (.join .and f g)
  | disjunct {ts : List Token} {f : Formula} : FormulaPhrase .conjunction ts f →
      FormulaPhrase .disjunction ts f
  | or {ts us : List Token} {t : Token} {f g : Formula} : FormulaPhrase .disjunction ts f →
      Junction t .or → FormulaPhrase .conjunction us g →
      FormulaPhrase .disjunction (ts ++ t :: us) (.join .or f g)

/-- The tokens of a whole expression. -/
def Sentence (ts : List Token) (f : Formula) : Prop := FormulaPhrase .disjunction ts f

end MetricAlarm.Grammar
