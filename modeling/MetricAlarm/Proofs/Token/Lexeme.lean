import MetricAlarm.Proofs.Grammar.Words
import MetricAlarm.Proofs.Text.Digits
import MetricAlarm.Token.Lexer

/-!
# Lexemes

What a word and a quoted string look like, and which texts are read as given tokens. Main
statements: `isLexeme_scan`, the words and strings that are scanned have that form, and
`IsLexeme.scan`, what has that form is read back where it cannot go on.
-/

namespace MetricAlarm

open Grammar

namespace Token

/-- Characters of words only, at least one. -/
structure IsName (w : String) : Prop where
  nonempty : w.toList ≠ []
  chars : ∀ c ∈ w.toList, isWordChar c = true

instance (w : String) : Decidable (IsName w) :=
  decidable_of_iff (w.toList ≠ [] ∧ w.toList.all isWordChar = true)
    ⟨fun h => ⟨h.1, List.all_eq_true.1 h.2⟩, fun h => ⟨h.nonempty, List.all_eq_true.2 h.chars⟩⟩

/-- Quotes around a text without quotes. -/
def IsQuotation (q : String) : Prop := ∃ cs : List Char, '"' ∉ cs ∧ q.toList = '"' :: (cs ++ ['"'])

def IsLexeme : Token → Prop
  | .word w => IsName w
  | .quoted q => IsQuotation q
  | _ => True

/-! ## Tokens of a text -/

theorem isLexeme_scanQuoted {cs rest : List Char} {t : Token}
    (h : scanQuoted cs = .ok (t, rest)) : IsLexeme t := by
  unfold scanQuoted at h
  split at h
  · cases h
  · next quote r hdrop =>
    simp only [Except.ok.injEq, Prod.mk.injEq] at h
    obtain ⟨rfl, -⟩ := h
    obtain rfl : quote = '"' := by
      have hq := List.head?_dropWhile_not (· ≠ '"') cs
      rw [hdrop] at hq
      simpa using hq
    refine ⟨cs.takeWhile (· ≠ '"'), fun hmem => ?_, String.toList_ofList⟩
    have hall : (cs.takeWhile (· ≠ '"')).all (· ≠ '"') = true := List.all_takeWhile
    simpa using List.all_eq_true.1 hall _ hmem

theorem eq_of_scanLonger {next : Char} {long short t : Token} {cs rest : List Char}
    (h : scanLonger next long short cs = (t, rest)) : t = long ∨ t = short := by
  cases cs with
  | nil => exact Or.inr (Prod.mk.inj h).1.symm
  | cons c cs =>
    simp only [scanLonger] at h
    split at h
    · exact Or.inl (Prod.mk.inj h).1.symm
    · exact Or.inr (Prod.mk.inj h).1.symm

theorem eq_of_scanDoubled {sign : Char} {d t : Token} {fault : SyntaxFault} {cs rest : List Char}
    (h : scanDoubled sign d fault cs = .ok (t, rest)) : t = d := by
  cases cs with
  | nil => cases h
  | cons c cs =>
    simp only [scanDoubled] at h
    split at h
    · exact (Prod.mk.inj (Except.ok.inj h)).1.symm
    · cases h

theorem isLexeme_scan {c : Char} {cs rest : List Char} {t : Token} (hb : Text.isBlank c = false)
    (h : scan c cs = .ok (t, rest)) : IsLexeme t := by
  unfold scan at h
  split at h
  case h_7 | h_8 => rcases eq_of_scanLonger (Except.ok.inj h) with rfl | rfl <;> trivial
  case h_9 | h_10 => rw [eq_of_scanDoubled h]; trivial
  case h_11 => exact isLexeme_scanQuoted h
  case h_12 =>
    simp only [Except.ok.injEq, Prod.mk.injEq] at h
    obtain ⟨rfl, -⟩ := h
    have hr : isRestricted c = false := by simp_all [isRestricted, restricted]
    refine ⟨by simp, fun d hd => ?_⟩
    rw [String.toList_ofList] at hd
    rcases List.mem_cons.1 hd with rfl | hd
    · simp [isWordChar, hb, hr]
    · exact List.all_eq_true.1 List.all_takeWhile d hd
  all_goals
    obtain ⟨rfl, -⟩ := Prod.mk.inj (Except.ok.inj h)
    trivial

/-! ## Texts of tokens -/

/-- The characters are read as these tokens, wherever they stand. -/
def Lexes (cs : List Char) (us : List Token) : Prop :=
  ∀ p, ∃ ts, lexFrom p cs = .ok ts ∧ tokens ts = us

/-- A word ends here. -/
def Stops (cs : List Char) : Prop := ∀ c ∈ cs.head?, isWordChar c = false

/-- In front of anything that ends a word, the characters are read as these tokens. -/
def Spells (cs : List Char) (us : List Token) : Prop :=
  ∀ ⦃rest : List Char⦄ ⦃vs : List Token⦄, Stops rest → Lexes rest vs →
    Lexes (cs ++ rest) (us ++ vs)

theorem lexes_nil : Lexes [] [] := fun p => ⟨[], by rw [lexFrom], rfl⟩

theorem lexes_blank {c : Char} {cs : List Char} {us : List Token} (hc : Text.isBlank c = true)
    (h : Lexes cs us) : Lexes (c :: cs) us := by
  intro p
  obtain ⟨ts, hts, hus⟩ := h (p + 1)
  exact ⟨ts, by rw [lexFrom, if_pos hc, hts], hus⟩

theorem lexFrom_scan {c : Char} {cs rest : List Char} {t : Token} (p : Nat)
    (hc : Text.isBlank c = false) (ht : scan c cs = .ok (t, rest)) :
    lexFrom p (c :: cs) = (lexFrom (p + t.text.length) rest).map (⟨t, p⟩ :: ·) := by
  rw [lexFrom, if_neg (by simp [hc])]
  split
  · next f hf => simp [ht] at hf
  · next t' rest' ht' =>
    obtain ⟨rfl, rfl⟩ : t = t' ∧ rest = rest' := by simpa [ht] using ht'
    rfl

theorem lexes_scan {c : Char} {cs rest : List Char} {t : Token} {us : List Token}
    (hc : Text.isBlank c = false) (ht : scan c cs = .ok (t, rest)) (h : Lexes rest us) :
    Lexes (c :: cs) (t :: us) := by
  intro p
  obtain ⟨ts, hts, hus⟩ := h (p + t.text.length)
  refine ⟨⟨t, p⟩ :: ts, ?_, by rw [tokens_cons, hus]⟩
  rw [lexFrom_scan p hc ht, hts]
  rfl

/-- The end of a text ends a word, so what spells tokens is read as them when it stands alone. -/
theorem Spells.lex {w : String} {us : List Token} (h : Spells w.toList us) :
    ∃ ts, Token.lex w = .ok ts ∧ tokens ts = us := by
  have hall := @h [] [] nofun lexes_nil 0
  rwa [List.append_nil, List.append_nil] at hall

theorem Spells.blank {c : Char} {cs : List Char} {us : List Token} (hc : Text.isBlank c = true)
    (h : Spells cs us) : Spells (c :: cs) us := by
  intro rest vs hr hrest
  exact lexes_blank hc (h hr hrest)

/-- A sign in front, whatever follows it. -/
theorem Spells.sign {c : Char} {t : Token} {cs : List Char} {us : List Token}
    (hc : Text.isBlank c = false) (ht : ∀ rest, scan c rest = .ok (t, rest)) (h : Spells cs us) :
    Spells (c :: cs) (t :: us) := by
  intro rest vs hr hrest
  exact lexes_scan hc (ht _) (h hr hrest)

/-- Texts stand one behind the other when the later one does not go on with a word. -/
theorem Spells.append {cs ds : List Char} {d : Char} {us vs : List Token} (h : Spells cs us)
    (hd : isWordChar d = false) (h' : Spells (d :: ds) vs) : Spells (cs ++ d :: ds) (us ++ vs) := by
  intro rest ws hr hrest
  have hstop : Stops (d :: ds ++ rest) := by
    intro c hc
    obtain rfl := Option.some.inj hc
    exact hd
  rw [List.append_assoc, List.append_assoc]
  exact h hstop (h' hr hrest)

theorem spells_nil : Spells [] [] := by
  intro rest vs _ hrest
  exact hrest

theorem scan_of_isWordChar {c : Char} (hc : isWordChar c = true) (cs : List Char) :
    scan c cs =
      .ok (.word (String.ofList (c :: cs.takeWhile isWordChar)), cs.dropWhile isWordChar) := by
  unfold scan
  split
  case h_12 => rfl
  all_goals exact absurd hc (by decide)

/-- A word is scanned up to the character that ends it. -/
theorem scan_word {c : Char} {cs rest : List Char} {w : String} (hw : IsName w) (hr : Stops rest)
    (h : c :: cs = w.toList ++ rest) : scan c cs = .ok (.word w, rest) := by
  obtain ⟨d, ds, hds⟩ := List.exists_cons_of_ne_nil hw.nonempty
  have hchars := hw.chars
  rw [hds, List.forall_mem_cons] at hchars
  rw [hds, List.cons_append] at h
  obtain ⟨rfl, rfl⟩ := List.cons.inj h
  obtain ⟨htake, hdrop⟩ := Text.run_append hchars.2 hr
  rw [scan_of_isWordChar hchars.1, htake, hdrop, ← hds, String.ofList_toList]

theorem scan_quoted {c : Char} {cs rest : List Char} {q : String} (hq : IsQuotation q)
    (h : c :: cs = q.toList ++ rest) : scan c cs = .ok (.quoted q, rest) := by
  obtain ⟨ds, hds, hq⟩ := hq
  have hall : ∀ c ∈ ds, decide (c ≠ '"') = true := by
    intro c hc
    exact decide_eq_true fun heq => hds (heq ▸ hc)
  rw [hq, List.cons_append, List.append_assoc] at h
  obtain ⟨rfl, rfl⟩ := List.cons.inj h
  rw [scan, scanQuoted, List.dropWhile_append_of_pos hall, List.takeWhile_append_of_pos hall]
  simp [← hq]

/-- The token does not go on with these characters. -/
def EndsBefore (cs : List Char) : Token → Prop
  | .word _ => Stops cs
  | .less | .greater => cs.head? ≠ some '='
  | _ => True

theorem scanLonger_eq {rest : List Char} (next : Char) (long short : Token)
    (h : rest.head? ≠ some next) : scanLonger next long short rest = (short, rest) := by
  cases rest with
  | nil => rfl
  | cons d rest => exact if_neg fun hd => h (congrArg some hd)

/-- A lexeme is scanned off its own text where it cannot go on. -/
theorem IsLexeme.scan {c : Char} {cs rest : List Char} {t : Token} (ht : IsLexeme t)
    (hends : EndsBefore rest t) (h : c :: cs = t.text.toList ++ rest) :
    Token.scan c cs = .ok (t, rest) := by
  cases t with
  | word w => exact scan_word ht hends h
  | quoted q => exact scan_quoted ht h
  | less | greater =>
    obtain ⟨rfl, rfl⟩ := List.cons.inj h
    exact congrArg Except.ok (scanLonger_eq '=' _ _ hends)
  | _ =>
    obtain ⟨rfl, rfl⟩ := List.cons.inj h
    rfl

/-- Lexemes are not empty and start with no blank. -/
theorem IsLexeme.exists_cons {t : Token} (h : IsLexeme t) :
    ∃ c w, t.text.toList = c :: w ∧ Text.isBlank c = false := by
  cases t with
  | word w =>
    obtain ⟨c, cs, hcs⟩ := List.exists_cons_of_ne_nil h.nonempty
    have hc : isWordChar c = true := h.chars c (hcs ▸ List.mem_cons_self)
    exact ⟨c, cs, hcs, by simp_all [isWordChar]⟩
  | quoted q =>
    obtain ⟨cs, -, hq⟩ := h
    exact ⟨'"', cs ++ ['"'], hq, by decide⟩
  | _ => exact ⟨_, _, rfl, by decide⟩

theorem IsLexeme.lexes {t : Token} {rest : List Char} {us : List Token} (ht : IsLexeme t)
    (hends : EndsBefore rest t) (h : Lexes rest us) : Lexes (t.text.toList ++ rest) (t :: us) := by
  obtain ⟨c, w, hw, hc⟩ := ht.exists_cons
  have hfirst : c :: (w ++ rest) = t.text.toList ++ rest := by rw [hw, List.cons_append]
  rw [← hfirst]
  exact lexes_scan hc (ht.scan hends hfirst) h

theorem spells_word {w : String} (hw : IsName w) : Spells w.toList [.word w] := by
  intro rest us hr h
  have hlexeme : IsLexeme (.word w) := hw
  exact hlexeme.lexes hr h

theorem spells_quoted {q : String} (hq : IsQuotation q) : Spells q.toList [.quoted q] := by
  intro rest us _ h
  have hlexeme : IsLexeme (.quoted q) := hq
  exact hlexeme.lexes trivial h

end Token

end MetricAlarm
