import MetricAlarm.Proofs.Grammar.Condition
import MetricAlarm.Proofs.Decimal.Threshold

/-!
# The text of a condition is a phrase of it

Conditions that come from texts have names and values that are made of words or quoted
(`Printable`). Their own text is read as the tokens of a phrase that says just this condition. Main
statements: `printable_leaves` and `exists_phrase_text`.
-/

namespace MetricAlarm

open Grammar Token

/-! ## Conditions from texts -/

/-- Words with single spaces between them. -/
def IsWords (s : String) : Prop :=
  ∃ ws : List String, ws ≠ [] ∧ (∀ w ∈ ws, IsName w) ∧ s = joinWords ws

structure Metric.Printable (m : Metric) : Prop where
  name : IsName m.name
  keys : ∀ d ∈ m.dimensions.entries, IsWords d.1
  values : ∀ d ∈ m.dimensions.entries, IsWords d.2 ∨ IsQuotation d.2

structure Condition.Printable (c : Condition) : Prop where
  metric : c.metric.Printable
  threshold : c.threshold.isFinite = true

theorem names_of_wordTokens {ws : List String} (h : ∀ t ∈ wordTokens ws, IsLexeme t) :
    ∀ w ∈ ws, IsName w := fun _ hw => h _ (List.mem_map_of_mem hw)

theorem words_of_dimension {ts : List Token} {d : Dimension} (hd : DimensionPhrase ts d)
    (h : ∀ t ∈ ts, IsLexeme t) : IsWords d.1 ∧ (IsWords d.2 ∨ IsQuotation d.2) := by
  cases hd with
  | @quoted ws q hws =>
    rw [List.forall_mem_append] at h
    refine ⟨⟨ws, hws, names_of_wordTokens h.1, rfl⟩, Or.inr (h.2 (.quoted q) (by simp))⟩
  | @words ws vs hws hvs =>
    rw [List.forall_mem_append, List.forall_mem_cons] at h
    exact ⟨⟨ws, hws, names_of_wordTokens h.1, rfl⟩,
      Or.inl ⟨vs, hvs, names_of_wordTokens h.2.2, rfl⟩⟩

theorem words_of_dimensions {ts : List Token} {ds : List Dimension} (hds : DimensionList ts ds)
    (h : ∀ t ∈ ts, IsLexeme t) :
    ∀ d ∈ ds, IsWords d.1 ∧ (IsWords d.2 ∨ IsQuotation d.2) := by
  induction hds with
  | one hd => exact List.forall_mem_singleton.2 (words_of_dimension hd h)
  | more hd _ ih =>
    rw [List.forall_mem_append, List.forall_mem_cons] at h
    exact List.forall_mem_cons.2 ⟨words_of_dimension hd h.1, ih h.2.2⟩

theorem mem_insertAll {d : Dimension} {found : Dimensions} {ds : List Dimension}
    (h : d ∈ (insertAll found ds).entries) : d ∈ found.entries ∨ d ∈ ds := by
  induction ds generalizing found with
  | nil => exact Or.inl h
  | cons e ds ih =>
    rcases ih h with h | h
    · rcases mem_insertEntry h with rfl | h
      · exact Or.inr List.mem_cons_self
      · exact Or.inl h
    · exact Or.inr (List.mem_cons_of_mem _ h)

theorem printable_metric {ts : List Token} {m : Metric} (hm : MetricPhrase ts m)
    (h : ∀ t ∈ ts, IsLexeme t) : m.Printable := by
  have hname : ∀ {name : String} {us : List Token}, (∀ t ∈ .word name :: us, IsLexeme t) →
      IsName name := fun h => h _ List.mem_cons_self
  cases hm with
  | bare name | empty name => exact ⟨hname h, nofun, nofun⟩
  | @dimensions name us ds hlist _ =>
    have hus : ∀ t ∈ us, IsLexeme t := fun t ht => h t (by simp [ht])
    have hall : ∀ d ∈ (Dimensions.ofList ds).entries,
        IsWords d.1 ∧ (IsWords d.2 ∨ IsQuotation d.2) := by
      intro d hd
      rcases mem_insertAll hd with hd | hd
      · cases hd
      · exact words_of_dimensions hlist hus d hd
    exact ⟨hname h, fun d hd => (hall d hd).1, fun d hd => (hall d hd).2⟩

theorem printable_measured {ts : List Token} {m : Measured} (hm : MeasuredPhrase ts m)
    (h : ∀ t ∈ ts, IsLexeme t) : m.metric.Printable := by
  cases hm with
  | call _ hms _ _ => exact printable_metric hms fun t ht => h t (by simp [ht])
  | bare hms => exact printable_metric hms h

theorem printable_comparison {ts : List Token} {c : Comparison} (hc : ComparisonPhrase ts c)
    (h : ∀ t ∈ ts, IsLexeme t) : c.measured.metric.Printable ∧ c.threshold.isFinite = true := by
  cases hc with
  | direct hms _ hw _ => exact ⟨printable_measured hms fun t ht => h t (by simp [ht]), hw.finite⟩
  | reversed hw _ hms => exact ⟨printable_measured hms fun t ht => h t (by simp [ht]), hw.finite⟩

theorem printable_condition {ts : List Token} {c : Condition} (hc : ConditionPhrase ts c)
    (h : ∀ t ∈ ts, IsLexeme t) : c.Printable := by
  cases hc with
  | once hcs =>
    obtain ⟨hm, hx⟩ := printable_comparison hcs h
    exact ⟨hm, hx⟩
  | times hcs _ _ =>
    obtain ⟨hm, hx⟩ := printable_comparison hcs fun t ht => h t (by simp [ht])
    exact ⟨hm, hx⟩

theorem printable_leaves {level : Level} {ts : List Token} {f : Formula}
    (hf : FormulaPhrase level ts f) (h : ∀ t ∈ ts, IsLexeme t) : ∀ c ∈ f.leaves, c.Printable := by
  induction hf with
  | condition hc => exact List.forall_mem_singleton.2 (printable_condition hc h)
  | parentheses _ ih => exact ih fun t ht => h t (by simp [ht])
  | conjunct _ ih | disjunct _ ih => exact ih h
  | and _ _ _ ihf ihg | or _ _ _ ihf ihg =>
    rw [List.forall_mem_append, List.forall_mem_cons] at h
    exact List.forall_mem_append.2 ⟨ihf h.1, ihg h.2.2⟩

/-! ## Their texts -/

theorem spells_joinWords {ws : List String} (hne : ws ≠ []) (h : ∀ w ∈ ws, IsName w) :
    Spells (joinWords ws).toList (wordTokens ws) := by
  induction ws with
  | nil => exact absurd rfl hne
  | cons w ws ih =>
    obtain ⟨hw, hws⟩ := List.forall_mem_cons.1 h
    cases ws with
    | nil =>
      rw [joinWords, String.intercalate_singleton]
      exact spells_word hw
    | cons v ws =>
      have hmore := (ih (List.cons_ne_nil v ws) hws).blank (c := ' ') (by decide)
      have hall := (spells_word hw).append (by decide) hmore
      rw [joinWords, String.intercalate_cons_cons]
      simpa [joinWords, wordTokens] using hall

theorem exists_dimension {d : Dimension} (hk : IsWords d.1) (hv : IsWords d.2 ∨ IsQuotation d.2) :
    ∃ us, DimensionPhrase us d ∧ Spells (Metric.dimensionText d).toList us := by
  obtain ⟨k, v⟩ := d
  obtain ⟨ws, hws, hnames, rfl⟩ := hk
  have hkey : ∀ {us : List Token}, Spells v.toList us →
      Spells (Metric.dimensionText (joinWords ws, v)).toList (wordTokens ws ++ .equals :: us) := by
    intro us hus
    have hvalue := hus.sign (c := '=') (by decide) fun _ => rfl
    have hall := (spells_joinWords hws hnames).append (by decide) hvalue
    simpa [Metric.dimensionText] using hall
  rcases hv with ⟨vs, hvs, hvnames, rfl⟩ | hq
  · exact ⟨_, .words hws hvs, hkey (spells_joinWords hvs hvnames)⟩
  · exact ⟨_, .quoted hws, hkey (spells_quoted hq)⟩

theorem spells_comma {cs : List Char} {us : List Token} (h : Spells cs us) :
    Spells (',' :: ' ' :: cs) (.comma :: us) :=
  (h.blank (by decide)).sign (by decide) fun _ => rfl

theorem exists_dimensions {ds : List Dimension} (hne : ds ≠ [])
    (h : ∀ d ∈ ds, IsWords d.1 ∧ (IsWords d.2 ∨ IsQuotation d.2)) :
    ∃ us, DimensionList us ds ∧
      Spells (", ".intercalate (ds.map Metric.dimensionText)).toList us := by
  induction ds with
  | nil => exact absurd rfl hne
  | cons d ds ih =>
    obtain ⟨hd, hds⟩ := List.forall_mem_cons.1 h
    obtain ⟨us, hus, hspells⟩ := exists_dimension hd.1 hd.2
    cases ds with
    | nil => exact ⟨us, .one hus, by simpa using hspells⟩
    | cons e ds =>
      obtain ⟨vs, hvs, hmore⟩ := ih (List.cons_ne_nil e ds) hds
      refine ⟨us ++ .comma :: vs, .more hus hvs, ?_⟩
      have hall := hspells.append (by decide) (spells_comma hmore)
      rw [List.map_cons, List.map_cons, String.intercalate_cons_cons]
      simpa using hall

theorem insertEntry_append {name value : String} {es : List Dimension} (h : ∀ e ∈ es, e.1 < name) :
    insertEntry name value es = es ++ [(name, value)] := by
  induction es with
  | nil => rfl
  | cons e es ih =>
    obtain ⟨he, hes⟩ := List.forall_mem_cons.1 h
    have hlt : ¬ name < e.1 := String.lt_asymm he
    have hne : name ≠ e.1 := fun heq => String.lt_irrefl name (heq ▸ he)
    rw [insertEntry, if_neg hlt, if_neg hne, ih hes, List.cons_append]

theorem entries_insertAll {d : Dimensions} {es : List Dimension}
    (h : SortedByName (d.entries ++ es)) : (insertAll d es).entries = d.entries ++ es := by
  induction es generalizing d with
  | nil => simp [insertAll]
  | cons e es ih =>
    have hlast : (d.insert e.1 e.2).entries = d.entries ++ [e] := by
      refine insertEntry_append fun b hb => ?_
      exact (List.pairwise_append.1 h).2.2 b hb e List.mem_cons_self
    have hmore : SortedByName ((d.insert e.1 e.2).entries ++ es) := by
      rw [hlast, List.append_assoc]
      exact h
    have hall := ih hmore
    rw [hlast, List.append_assoc] at hall
    exact hall

/-- Dimensions are put together again from their entries. -/
theorem ofList_entries (d : Dimensions) : Dimensions.ofList d.entries = d := by
  have h : (insertAll .empty d.entries).entries = d.entries := entries_insertAll d.sorted
  obtain ⟨es, hes⟩ := d
  exact Dimensions.mk.injEq .. ▸ h

theorem exists_metric {m : Metric} (h : m.Printable) :
    ∃ us, MetricPhrase us m ∧ Spells m.text.toList us := by
  obtain ⟨name, ds⟩ := m
  by_cases hds : ds.entries = []
  · have hempty : ds = .empty := by
      rw [← ofList_entries ds, hds]
      rfl
    subst hempty
    exact ⟨_, .bare name, spells_word h.name⟩
  · obtain ⟨us, hus, hspells⟩ := exists_dimensions hds fun d hd => ⟨h.keys d hd, h.values d hd⟩
    have hphrase := MetricPhrase.dimensions name hus ds.nodup_names
    rw [ofList_entries] at hphrase
    refine ⟨_, hphrase, ?_⟩
    have hclose := spells_nil.sign (c := '\x7d') (by decide) fun _ => rfl
    have hopen := (hspells.append (by decide) hclose).sign (c := '\x7b') (by decide) fun _ => rfl
    have hall := (spells_word h.name).append (by decide) hopen
    rw [Metric.text, if_neg hds]
    simpa using hall

/-! ## Arguments and thresholds -/

namespace Grammar.Argument

/-- An argument as it is written. -/
def text : Argument → String
  | .period n => toString n.toNat
  | .deterministic => "deterministic"

theorem isName_text (a : Argument) : IsName a.text := by
  cases a with
  | period n => exact isName_toString n.toNat
  | deterministic => decide

theorem phrase_text (a : Argument) : ArgumentPhrase (.word a.text) a := by
  cases a with
  | period n => exact .period (isInteger_toString n)
  | deterministic => exact .deterministic (by decide)

end Grammar.Argument

namespace Condition

/-- What the condition gives to its function. -/
def given (c : Condition) : Arguments where
  period := if c.period = defaultPeriod then none else some c.period
  deterministic := c.deterministic

/-- The arguments that say so. -/
def spokenArguments (c : Condition) : List Argument :=
  (if c.period = defaultPeriod then [] else [.period c.period]) ++
    (if c.deterministic then [.deterministic] else [])

theorem arguments_eq (c : Condition) :
    c.arguments = c.metric.text :: c.spokenArguments.map Argument.text := by
  unfold arguments spokenArguments
  split <;> split <;> rfl

theorem says_given (c : Condition) : Says c.spokenArguments c.given := by
  unfold spokenArguments given
  split <;> cases c.deterministic <;> exact ⟨rfl, rfl⟩

end Condition

theorem spells_arguments {first : String} {us : List Token} (h : Spells first.toList us)
    (as : List Argument) :
    ∃ vs, ArgumentList vs as ∧
      Spells (", ".intercalate (first :: as.map Argument.text)).toList (us ++ vs) := by
  induction as generalizing first us with
  | nil => exact ⟨[], .nil, by simpa using h⟩
  | cons a as ih =>
    obtain ⟨vs, hvs, hmore⟩ := ih (spells_word a.isName_text)
    refine ⟨.comma :: .word a.text :: vs, .cons a.phrase_text hvs, ?_⟩
    have hall := h.append (by decide) (spells_comma hmore)
    rw [List.map_cons, String.intercalate_cons_cons]
    simpa using hall

theorem isName_name (f : Aggregate) : IsName f.name := by
  cases f <;> decide

theorem exists_call (c : Condition) (h : c.metric.Printable) :
    ∃ us, MeasuredPhrase (.word c.function.name :: .leftParen :: us)
        ⟨some c.function, c.metric, c.given⟩ ∧
      Spells ((", ".intercalate c.arguments).toList ++ [')']) us := by
  obtain ⟨us, hus, hmetric⟩ := exists_metric h
  obtain ⟨vs, hvs, hspells⟩ := spells_arguments hmetric c.spokenArguments
  refine ⟨us ++ vs ++ [.rightParen],
    .call ((sameIgnoringCase_iff).2 rfl) hus hvs c.says_given, ?_⟩
  have hclose := spells_nil.sign (c := ')') (by decide) fun _ => rfl
  have hall := hspells.append (by decide) hclose
  rw [c.arguments_eq]
  simpa using hall

/-- The sign of a comparator. -/
def Comparator.token : Comparator → Token
  | .lt => .less
  | .lte => .lessEqual
  | .gt => .greater
  | .gte => .greaterEqual

theorem relop_token (c : Comparator) : Relop c.token c := by
  cases c with
  | lt => exact .less
  | lte => exact .lessEqual
  | gt => exact .greater
  | gte => exact .greaterEqual

/-- The blank behind the sign keeps it from growing. -/
theorem spells_symbol (c : Comparator) {cs : List Char} {us : List Token} (h : Spells cs us) :
    Spells (c.symbol.toList ++ ' ' :: cs) (c.token :: us) := by
  intro rest ts hr hrest
  have hblank : Lexes (' ' :: (cs ++ rest)) (us ++ ts) := lexes_blank (by decide) (h hr hrest)
  cases c <;> exact lexes_scan (by decide) rfl hblank

/-- Nothing, or the number of periods behind its keyword. -/
theorem spells_periods (n : UInt32) :
    Spells (' ' :: ("times ".toList ++ (toString n.toNat).toList))
      [.word "times", .word (toString n.toNat)] := by
  have htimes : IsName "times" := by decide
  have hn := (spells_word (isName_toString n.toNat)).blank (c := ' ') (by decide)
  have hall := ((spells_word htimes).append (by decide) hn).blank (c := ' ') (by decide)
  simpa using hall

namespace Condition

/-- The comparison that the text of the condition makes. -/
def comparison (c : Condition) : Comparison :=
  ⟨⟨some c.function, c.metric, c.given⟩, c.comparator, c.threshold⟩

theorem meaning_comparison (c : Condition) : c.comparison.meaning c.periods = c := by
  obtain ⟨f, m, r, x, period, n, d⟩ := c
  by_cases h : period = defaultPeriod
  · subst h
    rfl
  · simp [comparison, Comparison.meaning, given, h]

/-- The text in front of the number of periods. -/
def comparisonText (c : Condition) : String :=
  c.function.name ++ "(" ++ ", ".intercalate c.arguments ++ ") " ++ c.comparator.symbol ++ " " ++
    Decimal.textWithFraction c.threshold

theorem text_eq (c : Condition) : c.text = c.comparisonText ++
    if c.periods = defaultPeriods then "" else " times " ++ toString c.periods.toNat := rfl

theorem exists_comparison {c : Condition} (h : c.Printable) :
    ∃ us, ComparisonPhrase us c.comparison ∧ Spells c.comparisonText.toList us := by
  obtain ⟨us, hus, hcall⟩ := exists_call c h.metric
  have hthreshold := isThreshold_textWithFraction h.threshold
  have hname := isName_textWithFraction h.threshold
  have hfirst : ¬ ThresholdFirst (.word c.function.name :: .leftParen :: us ++
      [c.comparator.token, .word (Decimal.textWithFraction c.threshold)]) := by
    rintro ⟨w, t, vs, d, hts, hw, -⟩
    obtain rfl : c.function.name = w := by simpa using (List.cons.inj hts).1
    revert hw
    cases c.function <;> decide
  refine ⟨_, .direct hus (relop_token c.comparator) hthreshold hfirst, ?_⟩
  have hsymbol := (spells_symbol c.comparator (spells_word hname)).blank (c := ' ') (by decide)
  have hopen := (hcall.append (by decide) hsymbol).sign (c := '(') (by decide) fun _ => rfl
  have hall := (spells_word (isName_name c.function)).append (by decide) hopen
  simpa [comparisonText] using hall

/-- The text of a printable condition is read as a phrase of the condition. -/
theorem exists_phrase_text {c : Condition} (h : c.Printable) :
    ∃ us, ConditionPhrase us c ∧ Spells c.text.toList us := by
  obtain ⟨us, hcomparison, hspells⟩ := exists_comparison h
  have hmeaning := meaning_comparison c
  rw [text_eq]
  by_cases hn : c.periods = defaultPeriods
  · have hphrase := ConditionPhrase.once hcomparison
    rw [show (1 : UInt32) = c.periods from hn.symm, hmeaning] at hphrase
    refine ⟨_, hphrase, ?_⟩
    rwa [if_pos hn, String.append_empty]
  · have hphrase := ConditionPhrase.times hcomparison (sameIgnoringCase_iff.2 rfl)
      (isInteger_toString c.periods)
    rw [hmeaning] at hphrase
    refine ⟨_, hphrase, ?_⟩
    have hall := hspells.append (by decide) (spells_periods c.periods)
    rw [if_neg hn]
    simpa using hall

end Condition

end MetricAlarm
