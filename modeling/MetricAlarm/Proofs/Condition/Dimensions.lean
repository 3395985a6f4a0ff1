import MetricAlarm.Proofs.Grammar.Condition

/-!
# Dimensions are those between the braces

The dimensions of a metric are kept in the order of their names, the tokens between its braces list
them in any order, one equals sign for each. Main statements: `lists_ofList` and `Holds.lists`.
-/

namespace MetricAlarm

open Grammar Token

/-! ## Dimensions between braces -/

/-- The tokens between the first braces. -/
def inBraces (us : List Token) : List Token :=
  (us.dropWhile (· ≠ .leftBrace)).tail.takeWhile (· ≠ .rightBrace)

/-- The tokens list these dimensions in some order, with an equals sign in each. -/
structure Lists (us : List Token) (ds : Dimensions) : Prop where
  phrases : us = [] ∧ ds.entries = [] ∨ ∃ es, DimensionList us es ∧ ds.entries.Perm es
  count : us.count .equals = ds.entries.length

variable {ts us : List Token} {d : Dimension} {ds : List Dimension} {m : Metric}

theorem not_mem_wordTokens {t : Token} (ht : ¬ IsWord t) (ws : List String) :
    t ∉ wordTokens ws := by
  intro hmem
  obtain ⟨w, -, rfl⟩ := List.mem_map.1 hmem
  exact ht ⟨w, rfl⟩

theorem equals_of_dimension (h : DimensionPhrase ts d) : ts.count .equals = 1 ∧ .rightBrace ∉ ts := by
  have hequals (ws : List String) : (wordTokens ws).count .equals = 0 :=
    List.count_eq_zero.2 (not_mem_wordTokens (by rintro ⟨w, hw⟩; cases hw) ws)
  have hbrace (ws : List String) : .rightBrace ∉ wordTokens ws :=
    not_mem_wordTokens (by rintro ⟨w, hw⟩; cases hw) ws
  cases h with
  | quoted _ => simp [hequals, hbrace]
  | words _ _ => simp [hequals, hbrace]

theorem equals_of_dimensions (h : DimensionList ts ds) :
    ts.count .equals = ds.length ∧ .rightBrace ∉ ts := by
  induction h with
  | one hd => exact equals_of_dimension hd
  | more hd _ ih =>
    obtain ⟨hcount, hbrace⟩ := equals_of_dimension hd
    simp only [List.count_append, List.count_cons, List.mem_append, List.mem_cons, List.length_cons,
      hcount, hbrace, ih.1, ih.2]
    exact ⟨by simp [Nat.add_comm], by simp⟩

theorem perm_insertEntry {name value : String} {es : List Dimension}
    (h : ∀ e ∈ es, e.1 ≠ name) : (insertEntry name value es).Perm ((name, value) :: es) := by
  induction es with
  | nil => rfl
  | cons e es ih =>
    obtain ⟨he, hes⟩ := List.forall_mem_cons.1 h
    rw [insertEntry]
    split
    · rfl
    · rw [if_neg fun heq => he heq.symm]
      exact ((ih hes).cons e).trans (.swap _ _ _)

theorem contains_eq_false {found : Dimensions} {name : String} (h : found.contains name = false) :
    ∀ e ∈ found.entries, e.1 ≠ name := by
  intro e he heq
  have hnone : found.entries.lookup name = none := by
    simpa [Dimensions.contains, Dimensions.get?] using h
  rw [List.lookup_eq_none_iff] at hnone
  simpa [heq] using hnone e he

theorem perm_insertAll {found : Dimensions} (h : New found ds) :
    (insertAll found ds).entries.Perm (found.entries ++ ds) := by
  induction ds generalizing found with
  | nil => simp [insertAll]
  | cons d ds ih =>
    obtain ⟨hd, hds⟩ := new_cons.1 h
    have hinsert : (found.insert d.1 d.2).entries.Perm (d :: found.entries) :=
      perm_insertEntry (contains_eq_false hd)
    calc (insertAll found (d :: ds)).entries
        = (insertAll (found.insert d.1 d.2) ds).entries := rfl
      _ |>.Perm ((found.insert d.1 d.2).entries ++ ds) := ih hds
      _ |>.Perm (d :: found.entries ++ ds) := hinsert.append_right ds
      _ |>.Perm (found.entries ++ d :: ds) := List.perm_middle.symm

theorem lists_ofList (h : DimensionList ts ds) (hnodup : (ds.map Prod.fst).Nodup) :
    Lists ts (.ofList ds) := by
  have hperm : (Dimensions.ofList ds).entries.Perm ds := perm_insertAll (new_empty.2 hnodup)
  exact ⟨.inr ⟨ds, h, hperm⟩, by rw [(equals_of_dimensions h).1, hperm.length_eq]⟩

/-! ## The metric of a condition -/

/-- The metric is written somewhere among the tokens, without a brace around it. -/
def Holds (us : List Token) (m : Metric) : Prop :=
  ∃ before ms after, us = before ++ (ms ++ after) ∧ .leftBrace ∉ before ∧ .leftBrace ∉ after ∧
    MetricPhrase ms m

theorem Holds.behind (h : Holds us m) (hts : .leftBrace ∉ ts) : Holds (ts ++ us) m := by
  obtain ⟨before, ms, after, rfl, hbefore, hafter, hm⟩ := h
  exact ⟨ts ++ before, ms, after, by simp, by simp [hts, hbefore], hafter, hm⟩

theorem Holds.before (h : Holds us m) (hts : .leftBrace ∉ ts) : Holds (us ++ ts) m := by
  obtain ⟨before, ms, after, rfl, hbefore, hafter, hm⟩ := h
  exact ⟨before, ms, after ++ ts, by simp, hbefore, by simp [hts, hafter], hm⟩

theorem holds_metric (h : MetricPhrase ts m) : Holds ts m :=
  ⟨[], ts, [], by simp, List.not_mem_nil, List.not_mem_nil, h⟩

theorem leftBrace_not_mem_arguments {as : List Argument} (h : ArgumentList ts as) :
    .leftBrace ∉ ts := by
  induction h with
  | nil => exact List.not_mem_nil
  | cons ha _ ih => cases ha <;> simp [ih]

theorem holds_measured {m : Measured} (h : MeasuredPhrase ts m) : Holds ts m.metric := by
  cases h with
  | @call w f ms us m as given _ hm hargs _ =>
    have hbefore : .leftBrace ∉ [Token.word w, .leftParen] := by simp
    have hafter : .leftBrace ∉ us ++ [.rightParen] := by simp [leftBrace_not_mem_arguments hargs]
    have hall := ((holds_metric hm).before hafter).behind hbefore
    simpa using hall
  | bare hm => exact holds_metric hm

theorem ne_leftBrace_of_relop {t : Token} {c : Comparator} (h : Relop t c) : .leftBrace ≠ t := by
  cases h <;> nofun

theorem holds_comparison {c : Comparison} (h : ComparisonPhrase ts c) :
    Holds ts c.measured.metric := by
  cases h with
  | direct hm ht _ _ => exact (holds_measured hm).before (by simp [ne_leftBrace_of_relop ht])
  | @reversed us t w _ _ _ _ ht hm =>
    have hbefore : .leftBrace ∉ [Token.word w, t] := by simp [ne_leftBrace_of_relop ht]
    exact (holds_measured hm).behind hbefore

theorem holds_condition {c : Condition} (h : ConditionPhrase ts c) : Holds ts c.metric := by
  cases h with
  | once hc => exact holds_comparison hc
  | times hc _ _ => exact (holds_comparison hc).before (by simp)

theorem inBraces_append {before : List Token} (h : .leftBrace ∉ before) (us : List Token) :
    inBraces (before ++ us) = inBraces us := by
  have hall : ∀ t ∈ before, decide (t ≠ .leftBrace) = true := by
    intro t ht
    exact decide_eq_true fun heq => h (heq ▸ ht)
  rw [inBraces, List.dropWhile_append_of_pos hall]
  rfl

theorem Holds.lists (h : Holds us m) : Lists (inBraces us) m.dimensions := by
  obtain ⟨before, ms, after, rfl, hbefore, hafter, hm⟩ := h
  rw [inBraces_append hbefore]
  cases hm with
  | bare name =>
    have hnone : inBraces ([.word name] ++ after) = [] := by
      rw [inBraces_append (by simp), ← List.append_nil after, inBraces_append hafter]
      rfl
    rw [hnone]
    exact ⟨.inl ⟨rfl, rfl⟩, rfl⟩
  | empty name => exact ⟨.inl ⟨rfl, rfl⟩, rfl⟩
  | @dimensions name us ds hds hnodup =>
    have hall : ∀ t ∈ us, decide (t ≠ .rightBrace) = true := by
      intro t ht
      exact decide_eq_true fun heq => (equals_of_dimensions hds).2 (heq ▸ ht)
    have hrest : (us ++ .rightBrace :: after).takeWhile (· ≠ .rightBrace) = us := by
      rw [List.takeWhile_append_of_pos hall, List.takeWhile_cons_of_neg (by simp), List.append_nil]
    have hbetween : inBraces (.word name :: .leftBrace :: (us ++ [.rightBrace]) ++ after) = us := by
      simpa [inBraces] using hrest
    rw [hbetween]
    exact lists_ofList hds hnodup

end MetricAlarm
