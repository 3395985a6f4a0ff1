import MetricAlarm.Proofs.Token.Tiling

/-!
# The first fault of a text

From left to right, a text is passed over by single characters, doubled signs and quoted strings,
up to the first place where none of these stands (`FirstFault`). Main statement:
`lex_eq_error_iff`, a text that is not read as tokens fails at that place.
-/

namespace MetricAlarm.Token

open Grammar

/-- What is read as one, whatever follows: a character that is not special, a doubled sign, a
quoted string. -/
inductive Passes : List Char → Prop
  | other {c : Char} : c ∉ ['&', '|', '"'] → Passes [c]
  | pair {c : Char} : c ∈ ['&', '|'] → Passes [c, c]
  | quotation {inner : List Char} : '"' ∉ inner → Passes ('"' :: (inner ++ ['"']))

/-- From left to right, the first place that cannot be read on, and what is to blame there. -/
inductive FirstFault : List Char → Nat → ScanFault → Prop
  | here {cs : List Char} {f : ScanFault} : Refused cs f → FirstFault cs 0 f
  | pass {w cs : List Char} {n : Nat} {f : ScanFault} : Passes w → FirstFault cs n f →
      FirstFault (w ++ cs) (w.length + n) f

variable {cs rest w v ds : List Char} {n p : Nat} {f : ScanFault} {t : Token}

theorem Passes.not_refused (h : Passes w) : ¬ Refused (w ++ cs) f := by
  intro hr
  cases h with
  | other hc => cases hr <;> exact hc (by decide)
  | pair hc =>
    cases hr with
    | ampersand h | bar h => exact h rfl
    | quote _ => exact absurd hc (by decide)
  | quotation _ =>
    cases hr with
    | quote h => exact h (by simp)

theorem Passes.ne_nil (h : Passes w) : w ≠ [] := by
  cases h <;> exact List.cons_ne_nil _ _

/-- The text in front of the first quote is where that quote is. -/
theorem quotation_inj (hw : '"' ∉ w) (hv : '"' ∉ v) (h : w ++ '"' :: cs = v ++ '"' :: ds) :
    w = v ∧ cs = ds := by
  have hrun : ∀ u es : List Char, '"' ∉ u → (u ++ '"' :: es).takeWhile (· ≠ '"') = u := by
    intro u es hu
    refine (Text.run_append (fun c hc => decide_eq_true ?_) (by simp)).1
    exact fun heq => hu (heq ▸ hc)
  obtain rfl : w = v := by rw [← hrun w cs hw, h, hrun v ds hv]
  exact ⟨rfl, (List.cons.inj (List.append_cancel_left h)).2⟩

/-- Nothing that is read as one begins another such thing. -/
theorem Passes.append_inj (hw : Passes w) (hv : Passes v) (h : w ++ cs = v ++ ds) :
    w = v ∧ cs = ds := by
  cases hw with
  | other hc =>
    cases hv with
    | other _ => exact List.append_inj h rfl
    | pair hd =>
      obtain ⟨rfl, -⟩ := List.cons.inj h
      exact absurd (List.mem_append_left ['"'] hd) hc
    | quotation _ =>
      obtain ⟨rfl, -⟩ := List.cons.inj h
      exact absurd (by decide) hc
  | pair hc =>
    cases hv with
    | other hd =>
      obtain ⟨rfl, -⟩ := List.cons.inj h
      exact absurd (List.mem_append_left ['"'] hc) hd
    | pair _ => exact List.append_inj h rfl
    | quotation _ =>
      obtain ⟨rfl, -⟩ := List.cons.inj h
      exact absurd hc (by decide)
  | @quotation inner hinner =>
    cases hv with
    | other hd =>
      obtain ⟨rfl, -⟩ := List.cons.inj h
      exact absurd (by decide) hd
    | pair hd =>
      obtain ⟨rfl, -⟩ := List.cons.inj h
      exact absurd hd (by decide)
    | @quotation inner' hinner' =>
      have hsplit : inner ++ '"' :: cs = inner' ++ '"' :: ds := by simpa using h
      obtain ⟨rfl, rfl⟩ := quotation_inj hinner hinner' hsplit
      exact ⟨rfl, rfl⟩

theorem firstFault_pass (hw : Passes w) :
    FirstFault (w ++ cs) n f ↔ ∃ m, n = w.length + m ∧ FirstFault cs m f := by
  constructor
  · intro h
    generalize hds : w ++ cs = ds at h
    cases h with
    | here h => exact absurd (hds ▸ h) hw.not_refused
    | @pass v ds m _ hv h =>
      obtain ⟨rfl, rfl⟩ := hw.append_inj hv hds
      exact ⟨m, rfl, h⟩
  · rintro ⟨m, rfl, h⟩
    exact .pass hw h

theorem firstFault_others (hds : ∀ c ∈ ds, c ∉ ['&', '|', '"']) :
    FirstFault (ds ++ cs) n f ↔ ∃ m, n = ds.length + m ∧ FirstFault cs m f := by
  induction ds generalizing n with
  | nil => simp
  | cons c ds ih =>
    obtain ⟨hc, hds⟩ := List.forall_mem_cons.1 hds
    have hfirst : FirstFault (c :: (ds ++ cs)) n f ↔ ∃ m, n = 1 + m ∧ FirstFault (ds ++ cs) m f :=
      firstFault_pass (.other hc)
    rw [List.cons_append, hfirst, List.length_cons]
    constructor
    · rintro ⟨m, rfl, h⟩
      obtain ⟨k, rfl, hk⟩ := (ih hds).1 h
      exact ⟨k, by omega, hk⟩
    · rintro ⟨k, rfl, h⟩
      exact ⟨ds.length + k, by omega, (ih hds).2 ⟨k, rfl, h⟩⟩

theorem breaks_word_of_special {c : Char} (h : c ∈ ['&', '|', '"']) :
    isWordChar c = false ∧ Text.isBlank c = false := by
  simp only [List.mem_cons, List.not_mem_nil, or_false] at h
  rcases h with rfl | rfl | rfl <;> decide

theorem firstFault_token (ht : IsLexeme t) : FirstFault (t.text.toList ++ rest) n f ↔
    ∃ m, n = t.text.length + m ∧ FirstFault rest m f := by
  cases t with
  | word w =>
    have hall : ∀ c ∈ w.toList, c ∉ ['&', '|', '"'] := by
      intro c hc hmem
      exact absurd (ht.chars c hc) (by simp [(breaks_word_of_special hmem).1])
    rw [← String.length_toList]
    exact firstFault_others hall
  | quoted q =>
    obtain ⟨ds, hds, hq⟩ := ht
    rw [← String.length_toList]
    simp only [text, hq]
    exact firstFault_pass (.quotation hds)
  | and => exact firstFault_pass (.pair (by decide))
  | or => exact firstFault_pass (.pair (by decide))
  | lessEqual | greaterEqual =>
    refine firstFault_others (List.forall_mem_cons.2 ⟨?_, List.forall_mem_singleton.2 ?_⟩)
    · decide
    · decide
  | _ => exact firstFault_pass (.other (by decide))

theorem Refused.unique {g : ScanFault} (hf : Refused cs f) (hg : Refused cs g) : g = f := by
  cases hf <;> cases hg <;> rfl

/-- A fault is found where no token starts. -/
theorem FirstFault.refused (h : FirstFault cs n f) : Refused (cs.drop n) f := by
  induction h with
  | here h => exact h
  | pass _ _ ih => rwa [← List.drop_drop, List.drop_left]

theorem firstFault_of_refused {g : ScanFault} (h : Refused cs f) :
    FirstFault cs n g ↔ n = 0 ∧ g = f := by
  constructor
  · intro hg
    cases hg with
    | here hg => exact ⟨rfl, h.unique hg⟩
    | pass hw _ => exact absurd h hw.not_refused
  · rintro ⟨rfl, rfl⟩
    exact .here h

theorem not_firstFault_nil : ¬ FirstFault [] n f := by
  intro h
  generalize hcs : [] = cs at h
  cases h with
  | here h => subst hcs; cases h
  | pass hw _ => exact hw.ne_nil (List.append_eq_nil_iff.1 hcs.symm).1

/-- The error that the first fault makes, when the first character has the offset `p`. -/
def Fails (p : Nat) (cs : List Char) (e : ExpressionError) : Prop :=
  ∃ n f, FirstFault cs n f ∧ e = .malformedText (p + n) (String.ofList f.token) f.fault

variable {e : ExpressionError}

theorem fails_behind {k : Nat}
    (h : ∀ n f, FirstFault cs n f ↔ ∃ m, n = k + m ∧ FirstFault rest m f) :
    Fails p cs e ↔ Fails (p + k) rest e := by
  constructor
  · rintro ⟨n, f, hf, rfl⟩
    obtain ⟨m, rfl, hm⟩ := (h n f).1 hf
    exact ⟨m, f, hm, by rw [Nat.add_assoc]⟩
  · rintro ⟨m, f, hm, rfl⟩
    exact ⟨k + m, f, (h _ f).2 ⟨m, rfl, hm⟩, by rw [Nat.add_assoc]⟩

theorem lexFrom_eq_error_iff : lexFrom p cs = .error e ↔ Fails p cs e := by
  -- blanks and tokens are passed over, so the first fault is the first one behind them
  fun_induction lexFrom p cs with
  | case1 p =>
    constructor
    · rintro ⟨⟩
    · rintro ⟨n, f, hf, -⟩
      exact absurd hf not_firstFault_nil
  | case2 p c cs hb ih =>
    have hc : c ∉ ['&', '|', '"'] := fun hmem => by simp [(breaks_word_of_special hmem).2] at hb
    rw [ih]
    exact (fails_behind fun _ _ => firstFault_pass (.other hc)).symm
  | case3 p c cs hb f hf =>
    have hfirst (n : Nat) (g : ScanFault) := firstFault_of_refused (n := n) (g := g)
      (scan_eq_error_iff.1 hf)
    constructor
    · intro h
      obtain rfl := Except.error.inj h
      exact ⟨0, f, (hfirst 0 f).2 ⟨rfl, rfl⟩, rfl⟩
    · rintro ⟨n, g, hg, rfl⟩
      obtain ⟨rfl, rfl⟩ := (hfirst n g).1 hg
      rfl
  | case4 p c cs hb t rest ht ih =>
    obtain ⟨hlex, -, hcs⟩ := (scan_eq_ok_iff (Bool.eq_false_iff.2 hb)).1 ht
    rw [hcs, fails_behind fun _ _ => firstFault_token hlex, ← ih]
    cases lexFrom (p + t.text.length) rest <;> simp [Except.map]

theorem lex_eq_error_iff {text : String} : lex text = .error e ↔
    ∃ n f, FirstFault text.toList n f ∧ e = .malformedText n (String.ofList f.token) f.fault := by
  refine lexFrom_eq_error_iff.trans ?_
  simp only [Fails, Nat.zero_add]

end MetricAlarm.Token
