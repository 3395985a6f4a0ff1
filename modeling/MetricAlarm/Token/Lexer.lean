import MetricAlarm.Formula.Error
import MetricAlarm.Token.Basic

/-!
# From text to tokens

`scan` takes the token that starts at a character that is not blank, as long as it can be;
`lexFrom` skips blanks and scans until the text ends. Main statement: `text_scan`, a token and what
is left of the text make up the text again; it also makes the recursion end.
-/

namespace MetricAlarm.Token

/-- Why no token starts at a place, with the text to blame. -/
structure ScanFault where
  token : List Char
  fault : SyntaxFault

/-- A sign that is longer when `next` follows. -/
def scanLonger (next : Char) (long short : Token) : List Char → Token × List Char
  | [] => (short, [])
  | c :: cs => if c = next then (long, cs) else (short, c :: cs)

/-- A sign that must be doubled. -/
def scanDoubled (sign : Char) (t : Token) (fault : SyntaxFault) :
    List Char → Except ScanFault (Token × List Char)
  | [] => .error ⟨[sign], fault⟩
  | c :: cs => if c = sign then .ok (t, cs) else .error ⟨[sign], fault⟩

/-- A quoted string behind its opening quote. -/
def scanQuoted (cs : List Char) : Except ScanFault (Token × List Char) :=
  match cs.dropWhile (· ≠ '"') with
  | [] => .error ⟨'"' :: cs, .unterminatedQuote⟩
  | quote :: rest =>
    .ok (.quoted (String.ofList ('"' :: (cs.takeWhile (· ≠ '"') ++ [quote]))), rest)

/-- The token that starts with the character `c`, which is not blank, in front of `cs`. -/
def scan (c : Char) (cs : List Char) : Except ScanFault (Token × List Char) :=
  match c with
  | '(' => .ok (.leftParen, cs)
  | ')' => .ok (.rightParen, cs)
  | '\x7b' => .ok (.leftBrace, cs)
  | '\x7d' => .ok (.rightBrace, cs)
  | ',' => .ok (.comma, cs)
  | '=' => .ok (.equals, cs)
  | '<' => .ok (scanLonger '=' .lessEqual .less cs)
  | '>' => .ok (scanLonger '=' .greaterEqual .greater cs)
  | '&' => scanDoubled '&' .and .loneAmpersand cs
  | '|' => scanDoubled '|' .or .loneBar cs
  | '"' => scanQuoted cs
  | c => .ok (.word (String.ofList (c :: cs.takeWhile isWordChar)), cs.dropWhile isWordChar)

theorem text_scanLonger {next first : Char} {long short t : Token} {cs rest : List Char}
    (hl : long.text.toList = [first, next]) (hs : short.text.toList = [first])
    (h : scanLonger next long short cs = (t, rest)) :
    ∃ w, t.text.toList = first :: w ∧ w ++ rest = cs := by
  cases cs with
  | nil =>
    simp only [scanLonger, Prod.mk.injEq] at h
    obtain ⟨rfl, rfl⟩ := h
    exact ⟨[], hs, rfl⟩
  | cons c cs =>
    simp only [scanLonger] at h
    split at h <;> (simp only [Prod.mk.injEq] at h; obtain ⟨rfl, rfl⟩ := h)
    · next hc => exact ⟨[next], hl, by simp [hc]⟩
    · exact ⟨[], hs, rfl⟩

theorem text_scanDoubled {sign : Char} {d t : Token} {fault : SyntaxFault} {cs rest : List Char}
    (hd : d.text.toList = [sign, sign]) (h : scanDoubled sign d fault cs = .ok (t, rest)) :
    ∃ w, t.text.toList = sign :: w ∧ w ++ rest = cs := by
  cases cs with
  | nil => simp [scanDoubled] at h
  | cons c cs =>
    simp only [scanDoubled] at h
    split at h
    · next hc =>
      simp only [Except.ok.injEq, Prod.mk.injEq] at h
      obtain ⟨rfl, rfl⟩ := h
      exact ⟨[sign], hd, by simp [hc]⟩
    · simp at h

theorem text_scanQuoted {t : Token} {cs rest : List Char} (h : scanQuoted cs = .ok (t, rest)) :
    ∃ w, t.text.toList = '"' :: w ∧ w ++ rest = cs := by
  unfold scanQuoted at h
  split at h
  · simp at h
  · next quote r hr =>
    simp only [Except.ok.injEq, Prod.mk.injEq] at h
    obtain ⟨rfl, rfl⟩ := h
    refine ⟨cs.takeWhile (· ≠ '"') ++ [quote], String.toList_ofList, ?_⟩
    rw [List.append_assoc, List.singleton_append, ← hr]
    exact List.takeWhile_append_dropWhile

/-- The token's text begins with the character it was found at, and the rest of that text and what
is left are the characters behind it. -/
theorem text_scan {c : Char} {cs rest : List Char} {t : Token} (h : scan c cs = .ok (t, rest)) :
    ∃ w, t.text.toList = c :: w ∧ w ++ rest = cs := by
  unfold scan at h
  split at h
  case h_7 => exact text_scanLonger (by decide) (by decide) (Except.ok.inj h)
  case h_8 => exact text_scanLonger (by decide) (by decide) (Except.ok.inj h)
  case h_9 => exact text_scanDoubled (by decide) h
  case h_10 => exact text_scanDoubled (by decide) h
  case h_11 => exact text_scanQuoted h
  all_goals
    simp only [Except.ok.injEq, Prod.mk.injEq] at h
    obtain ⟨rfl, rfl⟩ := h
  case h_12 =>
    exact ⟨cs.takeWhile isWordChar, String.toList_ofList, List.takeWhile_append_dropWhile⟩
  all_goals exact ⟨[], by decide, rfl⟩

theorem length_scan {c : Char} {cs rest : List Char} {t : Token} (h : scan c cs = .ok (t, rest)) :
    rest.length ≤ cs.length := by
  obtain ⟨w, -, rfl⟩ := text_scan h
  simp

/-- The tokens of a text whose first character has the offset `position`. -/
def lexFrom (position : Nat) : List Char → Except ExpressionError (List Placed)
  | [] => .ok []
  | c :: cs =>
    if Text.isBlank c then lexFrom (position + 1) cs
    else
      match _h : scan c cs with
      | .error f => .error (.malformedText position (String.ofList f.token) f.fault)
      | .ok (t, rest) =>
        (lexFrom (position + t.text.length) rest).map (⟨t, position⟩ :: ·)
termination_by cs => cs.length
decreasing_by
  · simp
  · have := length_scan _h
    simp only [List.length_cons]
    omega

/-- The tokens of a text, each with its offset in characters. -/
def lex (text : String) : Except ExpressionError (List Placed) := lexFrom 0 text.toList

end MetricAlarm.Token
