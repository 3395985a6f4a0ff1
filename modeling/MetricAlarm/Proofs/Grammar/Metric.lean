import MetricAlarm.Proofs.Grammar.Words

/-!
# Metrics are read as they are phrased

Main statements: `takes_metric` and `finds_metric`.
-/

namespace MetricAlarm.Grammar

/-! ## Words in a row -/

def IsWord (t : Token) : Prop := ∃ w, t = .word w

theorem words_eq (ts : List Placed) :
    ∃ us, ts = us ++ (words ts).2 ∧ tokens us = wordTokens (words ts).1 := by
  fun_induction words ts with
  | case1 w p ts ih =>
    obtain ⟨us, hus, htok⟩ := ih
    exact ⟨⟨.word w, p⟩ :: us, by rw [List.cons_append, ← hus], by simp [htok, wordTokens]⟩
  | case2 ts => exact ⟨[], rfl, rfl⟩

theorem words_append {ts rest : List Placed} {ws : List String} (hts : tokens ts = wordTokens ws)
    (hr : NotFirst IsWord rest) : words (ts ++ rest) = (ws, rest) := by
  induction ws generalizing ts with
  | nil =>
    obtain rfl := tokens_eq_nil.1 hts
    cases rest with
    | nil => rfl
    | cons t rest =>
      obtain ⟨t, p⟩ := t
      have := hr _ rfl
      cases t with
      | word w => exact absurd ⟨w, rfl⟩ this
      | _ => rfl
  | cons w ws ih =>
    obtain ⟨p, us, rfl, hus⟩ := tokens_eq_cons.1 hts
    rw [List.cons_append, words, ih hus]

theorem takes_dimensionValue {stop : Nat} : Takes (dimensionValue stop) fun ts v =>
    ts = [.quoted v] ∨ ∃ vs, vs ≠ [] ∧ ts = wordTokens vs ∧ v = joinWords vs := by
  intro ts rest v h
  unfold dimensionValue at h
  split at h
  · next q p us =>
    simp only [Except.ok.injEq, Prod.mk.injEq] at h
    obtain ⟨rfl, rfl⟩ := h
    exact ⟨[⟨.quoted q, p⟩], rfl, Or.inl rfl⟩
  · split at h
    · cases h
    · next vs us hne hw =>
      simp only [Except.ok.injEq, Prod.mk.injEq] at h
      obtain ⟨rfl, rfl⟩ := h
      obtain ⟨us', hus, htok⟩ := words_eq ts
      rw [hw] at hus htok
      exact ⟨us', hus, Or.inr ⟨vs, fun h0 => hne h0, htok, rfl⟩⟩

theorem takes_dimension {stop : Nat} : Takes (dimension stop) DimensionPhrase := by
  intro ts rest d h
  unfold dimension at h
  split at h
  · cases h
  · next ws p us hne hw =>
    obtain ⟨ts', hts, htok⟩ := words_eq ts
    rw [hw] at hts htok
    obtain ⟨⟨v, r⟩, hv, hvr⟩ := map_eq_ok h
    obtain ⟨rfl, rfl⟩ := Prod.mk.inj hvr
    obtain ⟨us', rfl, hval⟩ := takes_dimensionValue hv
    refine ⟨ts' ++ ⟨.equals, p⟩ :: us', by simp [hts], ?_⟩
    rw [tokens_append, tokens_cons, htok]
    rcases hval with hq | ⟨vs, hvs, hus, rfl⟩
    · rw [hq]
      exact .quoted fun h0 => hne h0
    · rw [hus]
      exact .words (fun h0 => hne h0) hvs
  · cases h

theorem notFirst_cons {class_ : Token → Prop} {t : Placed} {ts : List Placed} :
    NotFirst class_ (t :: ts) ↔ ¬ class_ t.token := by
  simp [NotFirst]

theorem finds_dimension {stop : Nat} :
    Finds (dimension stop) DimensionPhrase (NotFirst IsWord) := by
  intro ts rest d hd hr
  generalize htok : tokens ts = us at hd
  cases hd with
  | @quoted ws q hws =>
    obtain ⟨ts, us, rfl, hts, hus⟩ := tokens_eq_append.1 htok
    obtain ⟨p, vs, rfl, hvs⟩ := tokens_eq_cons.1 hus
    obtain ⟨p', vs', rfl, hvs'⟩ := tokens_eq_cons.1 hvs
    obtain rfl := tokens_eq_nil.1 hvs'
    have hw : words (ts ++ ⟨.equals, p⟩ :: ⟨.quoted q, p'⟩ :: rest) = _ :=
      words_append hts (notFirst_cons.2 (by rintro ⟨w, hw⟩; cases hw))
    obtain ⟨w, ws, rfl⟩ := List.exists_cons_of_ne_nil hws
    simp only [dimension, List.append_assoc, List.cons_append, List.nil_append, hw,
      dimensionValue, Except.map]
  | @words ws vs hws hvs =>
    obtain ⟨ts, us, rfl, hts, hus⟩ := tokens_eq_append.1 htok
    obtain ⟨p, us', rfl, hus'⟩ := tokens_eq_cons.1 hus
    have hw : words (ts ++ ⟨.equals, p⟩ :: (us' ++ rest)) = _ :=
      words_append hts (notFirst_cons.2 (by rintro ⟨w, hw⟩; cases hw))
    have hv := words_append hus' hr
    obtain ⟨w, ws, rfl⟩ := List.exists_cons_of_ne_nil hws
    obtain ⟨v, vs, rfl⟩ := List.exists_cons_of_ne_nil hvs
    obtain ⟨p', us', rfl, -⟩ := tokens_eq_cons.1 hus'
    rw [List.cons_append] at hv hw
    simp only [dimension, List.append_assoc, List.cons_append, hw, dimensionValue, hv, Except.map]

/-! ## Dimensions -/

theorem lookup_entry (name value key : String) (es : List Dimension) :
    List.lookup key ((name, value) :: es) = if key = name then some value else es.lookup key := by
  rw [List.lookup_cons]
  by_cases h : key = name
  · simp [h]
  · simp [h, beq_false_of_ne h]

theorem lookup_insertEntry (name value key : String) (es : List Dimension) :
    (insertEntry name value es).lookup key = if key = name then some value else es.lookup key := by
  induction es with
  | nil => rw [insertEntry, lookup_entry]
  | cons e es ih =>
    obtain ⟨k, v⟩ := e
    simp only [insertEntry]
    split
    · rw [lookup_entry]
    · split
      · next heq =>
        subst heq
        simp only [lookup_entry]
        split <;> rfl
      · next hne =>
        simp only [lookup_entry, ih]
        by_cases h : key = k
        · have : ¬ k = name := fun h' => hne h'.symm
          simp [h, this]
        · simp [h]

theorem contains_insert (d : Dimensions) (name value key : String) :
    (d.insert name value).contains key = true ↔ key = name ∨ d.contains key = true := by
  simp only [Dimensions.contains, Dimensions.get?, Dimensions.insert, lookup_insertEntry]
  by_cases h : key = name <;> simp [h]

/-- The map with more entries, one after the other. -/
def insertAll (d : Dimensions) (es : List Dimension) : Dimensions :=
  es.foldl (fun d e => d.insert e.1 e.2) d

/-- Entries whose names are new, each time. -/
def New (found : Dimensions) (ds : List Dimension) : Prop :=
  (ds.map Prod.fst).Nodup ∧ ∀ d ∈ ds, found.contains d.1 = false

theorem new_cons {found : Dimensions} {d : Dimension} {ds : List Dimension} :
    New found (d :: ds) ↔ found.contains d.1 = false ∧ New (found.insert d.1 d.2) ds := by
  have hfalse : ∀ e : Dimension, (found.insert d.1 d.2).contains e.1 = false ↔
      e.1 ≠ d.1 ∧ found.contains e.1 = false := by
    intro e
    rw [← Bool.not_eq_true, contains_insert, not_or, Bool.not_eq_true]
  simp only [New, List.map_cons, List.nodup_cons, List.mem_map, List.forall_mem_cons, hfalse]
  constructor
  · rintro ⟨⟨hd, hn⟩, hf, hfs⟩
    exact ⟨hf, hn, fun e he => ⟨fun h => hd ⟨e, he, h⟩, hfs e he⟩⟩
  · rintro ⟨hf, hn, hfs⟩
    exact ⟨⟨fun ⟨e, he, h⟩ => (hfs e he).1 h, hn⟩, hf, fun e he => (hfs e he).2⟩

theorem moreDimensions_eq_ok {stop : Nat} {ts rest : List Placed} {more : Bool} :
    moreDimensions stop ts = .ok (more, rest) ↔
      ∃ p, ts = ⟨if more then .comma else .rightBrace, p⟩ :: rest := by
  constructor
  · intro h
    unfold moreDimensions at h
    split at h
    · next p us => cases h; exact ⟨p, rfl⟩
    · next p us => cases h; exact ⟨p, rfl⟩
    · cases h
  · rintro ⟨p, rfl⟩
    cases more <;> rfl

theorem takes_dimensions {stop : Nat} {found : Dimensions} :
    Takes (dimensions stop found) fun ts ds' => ∃ us ds, ts = us ++ [.rightBrace] ∧
      DimensionList us ds ∧ New found ds ∧ ds' = insertAll found ds := by
  intro ts rest ds' h
  fun_induction dimensions stop found ts with
  | case1 => cases h
  | case2 => cases h
  | case3 => cases h
  | case4 found ts name value r hd hc r' hm ih =>
    obtain ⟨ts, rfl, hts⟩ := takes_dimension hd
    obtain ⟨p, rfl⟩ := moreDimensions_eq_ok.1 hm
    obtain ⟨us, rfl, us', ds, hus, hlist, hnew, rfl⟩ := ih h
    refine ⟨ts ++ ⟨.comma, p⟩ :: us, by simp, tokens ts ++ .comma :: us', (name, value) :: ds, ?_,
      .more hts hlist, new_cons.2 ⟨by simpa using hc, hnew⟩, rfl⟩
    simp [hus]
  | case5 found ts name value r hd hc r' hm =>
    obtain ⟨ts, rfl, hts⟩ := takes_dimension hd
    obtain ⟨p, rfl⟩ := moreDimensions_eq_ok.1 hm
    simp only [Except.ok.injEq, Prod.mk.injEq] at h
    obtain ⟨rfl, rfl⟩ := h
    refine ⟨ts ++ [⟨.rightBrace, p⟩], by simp, tokens ts, [(name, value)], by simp, .one hts, ?_,
      rfl⟩
    simpa [New] using hc

theorem dimensions_eq {stop : Nat} {found : Dimensions} {ts us rest : List Placed}
    {d : Dimension} {more : Bool} (hd : dimension stop ts = .ok (d, us))
    (hc : found.contains d.1 = false) (hm : moreDimensions stop us = .ok (more, rest)) :
    dimensions stop found ts =
      if more then dimensions stop (found.insert d.1 d.2) rest
      else .ok (found.insert d.1 d.2, rest) := by
  rw [dimensions]
  split
  · next e he => simp [hd] at he
  · next name value us' he =>
    obtain ⟨rfl, rfl⟩ : d = (name, value) ∧ us = us' := by simpa [hd] using he
    rw [if_neg (by simp [hc])]
    split
    · next e he => simp [hm] at he
    · next rest' he =>
      obtain ⟨rfl, rfl⟩ : more = true ∧ rest = rest' := by simpa [hm] using he
      rfl
    · next rest' he =>
      obtain ⟨rfl, rfl⟩ : more = false ∧ rest = rest' := by simpa [hm] using he
      rfl

theorem dimensions_append {stop : Nat} {found : Dimensions} {ts rest : List Placed}
    {ds : List Dimension} (hts : DimensionList (tokens ts) ds) (hn : New found ds) (p : Nat) :
    dimensions stop found (ts ++ ⟨.rightBrace, p⟩ :: rest) = .ok (insertAll found ds, rest) := by
  generalize htok : tokens ts = us at hts
  induction hts generalizing found ts with
  | @one us d hd =>
    subst htok
    have hread : dimension stop (ts ++ ⟨.rightBrace, p⟩ :: rest) = _ :=
      finds_dimension hd (notFirst_cons.2 (by rintro ⟨w, hw⟩; cases hw))
    exact dimensions_eq hread (new_cons.1 hn).1 rfl
  | @more us vs d ds hd _ ih =>
    obtain ⟨us, vs', rfl, rfl, hvs⟩ := tokens_eq_append.1 htok
    obtain ⟨q, us', rfl, hus'⟩ := tokens_eq_cons.1 hvs
    have hread : dimension stop (us ++ ⟨.comma, q⟩ :: (us' ++ ⟨.rightBrace, p⟩ :: rest)) = _ :=
      finds_dimension hd (notFirst_cons.2 (by rintro ⟨w, hw⟩; cases hw))
    rw [List.append_assoc, List.cons_append, dimensions_eq hread (new_cons.1 hn).1 rfl]
    exact ih (new_cons.1 hn).2 hus'

theorem new_empty {ds : List Dimension} : New .empty ds ↔ (ds.map Prod.fst).Nodup :=
  and_iff_left fun _ _ => rfl

theorem takes_metric {stop : Nat} : Takes (metric stop) MetricPhrase := by
  intro ts rest m h
  unfold metric at h
  split at h
  · next name p p' p'' us =>
    simp only [Except.ok.injEq, Prod.mk.injEq] at h
    obtain ⟨rfl, rfl⟩ := h
    exact ⟨[⟨.word name, p⟩, ⟨.leftBrace, p'⟩, ⟨.rightBrace, p''⟩], rfl, .empty name⟩
  · next name p p' us _ =>
    obtain ⟨⟨ds', r⟩, hd, hdr⟩ := map_eq_ok h
    obtain ⟨rfl, rfl⟩ := Prod.mk.inj hdr
    obtain ⟨vs, rfl, us, ds, hvs, hlist, hnew, rfl⟩ := takes_dimensions hd
    refine ⟨⟨.word name, p⟩ :: ⟨.leftBrace, p'⟩ :: vs, rfl, ?_⟩
    rw [tokens_cons, tokens_cons, hvs]
    exact .dimensions name hlist (new_empty.1 hnew)
  · next name p us _ _ =>
    simp only [Except.ok.injEq, Prod.mk.injEq] at h
    obtain ⟨rfl, rfl⟩ := h
    exact ⟨[⟨.word name, p⟩], rfl, .bare name⟩
  · cases h

theorem DimensionList.starts_with_word {ts : List Token} {ds : List Dimension}
    (h : DimensionList ts ds) : ∃ w us, ts = .word w :: us := by
  have hphrase : ∀ {ts : List Token} {d : Dimension}, DimensionPhrase ts d →
      ∃ w us, ts = .word w :: us := by
    intro ts d hd
    cases hd with
    | @quoted ws _ hws | @words ws _ hws =>
      obtain ⟨w, ws, rfl⟩ := List.exists_cons_of_ne_nil hws
      exact ⟨w, _, rfl⟩
  cases h with
  | one hd => exact hphrase hd
  | more hd _ =>
    obtain ⟨w, us, rfl⟩ := hphrase hd
    exact ⟨w, _, rfl⟩

theorem metric_bare {stop : Nat} {ts : List Placed} (name : String) (p : Nat)
    (h : NotFirst (· = .leftBrace) ts) :
    metric stop (⟨.word name, p⟩ :: ts) = .ok (.named name, ts) := by
  rw [metric]
  · rintro q r us rfl
    exact h _ rfl rfl
  · rintro q us rfl
    exact h _ rfl rfl

theorem metric_braces {stop : Nat} {ts : List Placed} (name : String) (p q : Nat)
    (h : NotFirst (· = .rightBrace) ts) :
    metric stop (⟨.word name, p⟩ :: ⟨.leftBrace, q⟩ :: ts) =
      (dimensions stop .empty ts).map fun x => (⟨name, x.1⟩, x.2) := by
  rw [metric]
  rintro r us rfl
  exact h _ rfl rfl

theorem finds_metric {stop : Nat} :
    Finds (metric stop) MetricPhrase (NotFirst (· = .leftBrace)) := by
  intro ts rest m hm hr
  generalize htok : tokens ts = us at hm
  cases hm with
  | bare name =>
    obtain ⟨p, us, rfl, hus⟩ := tokens_eq_cons.1 htok
    obtain rfl := tokens_eq_nil.1 hus
    exact metric_bare name p hr
  | empty name =>
    obtain ⟨p, ts₁, rfl, h₁⟩ := tokens_eq_cons.1 htok
    obtain ⟨p', ts₂, rfl, h₂⟩ := tokens_eq_cons.1 h₁
    obtain ⟨p'', ts₃, rfl, h₃⟩ := tokens_eq_cons.1 h₂
    obtain rfl := tokens_eq_nil.1 h₃
    rfl
  | @dimensions name us ds hlist hnodup =>
    obtain ⟨p, ts₁, rfl, h₁⟩ := tokens_eq_cons.1 htok
    obtain ⟨p', ts₂, rfl, h₂⟩ := tokens_eq_cons.1 h₁
    obtain ⟨vs, ts₃, rfl, rfl, h₃⟩ := tokens_eq_append.1 h₂
    obtain ⟨q, ts₄, rfl, hnil⟩ := tokens_eq_cons.1 h₃
    obtain rfl := tokens_eq_nil.1 hnil
    have hread : dimensions stop .empty (vs ++ ⟨.rightBrace, q⟩ :: rest) = _ :=
      dimensions_append hlist (new_empty.2 hnodup) q
    have hfirst : NotFirst (· = .rightBrace) (vs ++ ⟨.rightBrace, q⟩ :: rest) := by
      obtain ⟨w, ts, hw⟩ := hlist.starts_with_word
      obtain ⟨r, vs, rfl, -⟩ := tokens_eq_cons.1 hw
      exact notFirst_cons.2 (by rintro ⟨⟩)
    simp only [List.cons_append, List.append_assoc, List.nil_append]
    rw [metric_braces name p p' hfirst, hread]
    rfl

end MetricAlarm.Grammar
