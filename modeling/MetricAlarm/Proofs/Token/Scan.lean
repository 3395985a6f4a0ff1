import Mathlib.Data.List.TakeWhile
import MetricAlarm.Proofs.Token.Lexeme

/-!
# One token

What is scanned at a character that is not blank. A token ends where it cannot go on (`EndsBefore`),
and there are three ways to find none (`Refused`). Main statements: `scan_eq_ok_iff`, the token is
the lexeme in front that ends there, and `scan_eq_error_iff`, what is blamed otherwise.
-/

namespace MetricAlarm.Token

variable {c : Char} {cs rest : List Char} {t : Token}

theorem endsBefore_scanLonger {long short : Token} (hl : EndsBefore rest long)
    (hs : rest.head? ≠ some '=' → EndsBefore rest short)
    (h : scanLonger '=' long short cs = (t, rest)) : EndsBefore rest t := by
  cases cs with
  | nil =>
    obtain ⟨rfl, rfl⟩ := Prod.mk.inj h
    exact hs nofun
  | cons d cs =>
    rw [scanLonger] at h
    split at h
    · obtain ⟨rfl, rfl⟩ := Prod.mk.inj h
      exact hl
    · next hd =>
      obtain ⟨rfl, rfl⟩ := Prod.mk.inj h
      exact hs fun hsome => hd (Option.some.inj hsome)

theorem endsBefore_scan (h : scan c cs = .ok (t, rest)) : EndsBefore rest t := by
  unfold scan at h
  split at h
  case h_7 =>
    have hlong : EndsBefore rest .lessEqual := trivial
    exact endsBefore_scanLonger hlong id (Except.ok.inj h)
  case h_8 =>
    have hlong : EndsBefore rest .greaterEqual := trivial
    exact endsBefore_scanLonger hlong id (Except.ok.inj h)
  case h_9 | h_10 => rw [eq_of_scanDoubled h]; trivial
  case h_11 =>
    unfold scanQuoted at h
    split at h
    · cases h
    · obtain ⟨rfl, rfl⟩ := Prod.mk.inj (Except.ok.inj h)
      trivial
  all_goals obtain ⟨rfl, rfl⟩ := Prod.mk.inj (Except.ok.inj h)
  case h_12 =>
    have hdrop := List.head?_dropWhile_not isWordChar cs
    intro d hd
    rw [hd] at hdrop
    simpa using hdrop
  all_goals trivial

theorem scan_eq_ok_iff (hc : Text.isBlank c = false) : scan c cs = .ok (t, rest) ↔
    IsLexeme t ∧ EndsBefore rest t ∧ c :: cs = t.text.toList ++ rest := by
  constructor
  · intro h
    obtain ⟨w, hw, hcs⟩ := text_scan h
    exact ⟨isLexeme_scan hc h, endsBefore_scan h, by rw [hw, ← hcs, List.cons_append]⟩
  · rintro ⟨ht, hends, h⟩
    exact ht.scan hends h

/-- No token starts here, and this is to blame. -/
inductive Refused : List Char → ScanFault → Prop
  | ampersand {cs : List Char} : cs.head? ≠ some '&' → Refused ('&' :: cs) ⟨['&'], .loneAmpersand⟩
  | bar {cs : List Char} : cs.head? ≠ some '|' → Refused ('|' :: cs) ⟨['|'], .loneBar⟩
  | quote {cs : List Char} : '"' ∉ cs → Refused ('"' :: cs) ⟨'"' :: cs, .unterminatedQuote⟩

/-- What is blamed stands where no token starts. -/
theorem Refused.begins {f : ScanFault} (h : Refused cs f) : f.token <+: cs := by
  cases h with
  | @ampersand cs | @bar cs => exact ⟨cs, rfl⟩
  | quote _ => exact List.prefix_refl _

theorem error_of_scanDoubled {sign : Char} {d : Token} {fault : SyntaxFault} {f : ScanFault}
    (h : scanDoubled sign d fault cs = .error f) : cs.head? ≠ some sign ∧ f = ⟨[sign], fault⟩ := by
  cases cs with
  | nil => exact ⟨nofun, (Except.error.inj h).symm⟩
  | cons c cs =>
    rw [scanDoubled] at h
    split at h
    · cases h
    · next hc => exact ⟨fun heq => hc (Option.some.inj heq), (Except.error.inj h).symm⟩

theorem scanDoubled_eq_error {sign : Char} (d : Token) (fault : SyntaxFault)
    (h : cs.head? ≠ some sign) : scanDoubled sign d fault cs = .error ⟨[sign], fault⟩ := by
  cases cs with
  | nil => rfl
  | cons c cs => exact if_neg fun hc => h (congrArg some hc)

theorem dropWhile_quote : cs.dropWhile (· ≠ '"') = [] ↔ '"' ∉ cs := by
  rw [List.dropWhile_eq_nil_iff]
  constructor
  · intro h hmem
    exact of_decide_eq_true (h _ hmem) rfl
  · intro h c hc
    exact decide_eq_true fun heq => h (heq ▸ hc)

theorem scan_eq_error_iff {f : ScanFault} : scan c cs = .error f ↔ Refused (c :: cs) f := by
  constructor
  · intro h
    unfold scan at h
    split at h
    case h_9 =>
      obtain ⟨hcs, rfl⟩ := error_of_scanDoubled h
      exact .ampersand hcs
    case h_10 =>
      obtain ⟨hcs, rfl⟩ := error_of_scanDoubled h
      exact .bar hcs
    case h_11 =>
      unfold scanQuoted at h
      split at h
      · next hdrop =>
        obtain rfl := Except.error.inj h
        exact .quote (dropWhile_quote.1 hdrop)
      · cases h
    all_goals cases h
  · intro h
    cases h with
    | ampersand h | bar h => exact scanDoubled_eq_error _ _ h
    | quote h =>
      show scanQuoted cs = _
      rw [scanQuoted, dropWhile_quote.2 h]

end MetricAlarm.Token
