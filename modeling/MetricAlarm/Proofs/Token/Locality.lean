import MetricAlarm.Proofs.Token.Tiling

/-!
# Tokens do not depend on what follows them

A text that is read as tokens is read as the same tokens in front of anything with which no token
can go on: a blank, a parenthesis, but neither the rest of a word nor the second half of a sign.
Main statement: `spellsApart_of_lex`.
-/

namespace MetricAlarm.Token

open Grammar

/-- No token goes on here. -/
def Separates (cs : List Char) : Prop := ∀ c ∈ cs.head?, isWordChar c = false ∧ c ≠ '='

theorem Separates.stops {cs : List Char} (h : Separates cs) : Stops cs := fun c hc => (h c hc).1

theorem separates_nil : Separates [] := nofun

theorem separates_cons {c : Char} {cs : List Char} (hc : isWordChar c = false) (hne : c ≠ '=') :
    Separates (c :: cs) := by
  intro d hd
  obtain rfl := Option.some.inj hd
  exact ⟨hc, hne⟩

/-! ## One token -/

variable {c : Char} {cs rest more : List Char} {t : Token}

theorem Separates.endsBefore (h : Separates cs) (t : Token) : EndsBefore cs t := by
  cases t with
  | word w => exact h.stops
  | less | greater => exact fun heq => (h '=' heq).2 rfl
  | _ => trivial

theorem EndsBefore.append (h : EndsBefore rest t) (hmore : Separates more) :
    EndsBefore (rest ++ more) t := by
  cases rest with
  | nil => exact hmore.endsBefore t
  | cons d rest => cases t <;> exact h

/-! ## Whole texts -/

/-- In front of anything with which no token goes on, the characters are read as these tokens. -/
def SpellsApart (cs : List Char) (us : List Token) : Prop :=
  ∀ ⦃rest : List Char⦄ ⦃vs : List Token⦄, Separates rest → Lexes rest vs →
    Lexes (cs ++ rest) (us ++ vs)

variable {us : List Token}

theorem Spells.apart (h : Spells cs us) : SpellsApart cs us := by
  intro rest vs hr hrest
  exact h hr.stops hrest

/-- Tokens that tile a text go on tiling it in front of what separates tokens. -/
theorem Tiles.spellsApart {p : Nat} {ts : List Placed} (h : Tiles p cs ts) :
    SpellsApart cs (tokens ts) := by
  induction h with
  | nil p => exact spells_nil.apart
  | blank hc _ ih =>
    intro rest vs hr hrest
    exact lexes_blank hc (ih hr hrest)
  | @token p t rest ts ht hends _ ih =>
    intro more vs hr hmore
    rw [List.append_assoc]
    exact ht.lexes (hends.append hr) (ih hr hmore)

/-- What a text is read as on its own, it is read as in front of what separates tokens. -/
theorem spellsApart_of_lex {text : String} {ts : List Placed} (h : lex text = .ok ts) :
    SpellsApart text.toList (tokens ts) := (lex_eq_ok_iff.1 h).spellsApart

theorem SpellsApart.lex {w : String} (h : SpellsApart w.toList us) :
    ∃ ts, Token.lex w = .ok ts ∧ tokens ts = us := by
  have hall := @h [] [] separates_nil lexes_nil 0
  rwa [List.append_nil, List.append_nil] at hall

theorem separates_blank {b : Char} (hb : Text.isBlank b = true) : Separates (b :: cs) := by
  refine separates_cons (by simp [isWordChar, hb]) ?_
  rintro rfl
  exact absurd hb (by decide)

theorem mem_allBlank {s : String} (h : Text.allBlank s = true) :
    ∀ b ∈ s.toList, Text.isBlank b = true := List.all_eq_true.1 h

theorem lexes_blanks {before : List Char} (hbefore : ∀ b ∈ before, Text.isBlank b = true)
    (h : Lexes cs us) : Lexes (before ++ cs) us := by
  induction before with
  | nil => exact h
  | cons b before ih =>
    rw [List.forall_mem_cons] at hbefore
    exact lexes_blank hbefore.1 (ih hbefore.2)

theorem separates_blanks {before : List Char} (hbefore : ∀ b ∈ before, Text.isBlank b = true)
    (h : Separates cs) : Separates (before ++ cs) := by
  cases before with
  | nil => exact h
  | cons b before => exact separates_blank (hbefore b List.mem_cons_self)

/-- Blanks around a text are not read. -/
theorem SpellsApart.blanks (h : SpellsApart cs us) {before after : List Char}
    (hbefore : ∀ b ∈ before, Text.isBlank b = true) (hafter : ∀ b ∈ after, Text.isBlank b = true) :
    SpellsApart (before ++ cs ++ after) us := by
  intro rest vs hr hrest
  have hinner := h (separates_blanks hafter hr) (lexes_blanks hafter hrest)
  rw [List.append_assoc, List.append_assoc]
  exact lexes_blanks hbefore hinner

/-- Parentheses keep a text apart from whatever follows them. -/
theorem SpellsApart.parentheses (h : SpellsApart cs us) {vs : List Token} (hrest : Lexes rest vs) :
    Lexes ('(' :: (cs ++ ')' :: rest)) (.leftParen :: (us ++ .rightParen :: vs)) := by
  have hclose : Lexes (')' :: rest) (.rightParen :: vs) := lexes_scan (by decide) rfl hrest
  have hinner := h (separates_cons (by decide) (by decide)) hclose
  exact lexes_scan (by decide) rfl hinner

end MetricAlarm.Token
