import MetricAlarm.Proofs.Token.Faults

/-!
# What tokens keep of a text

Main statement: `lex_lossless`. The tokens of a text are slices of it with nothing but blanks between
them, and none of them could be longer; a text without tokens is refused at its first fault.
-/

namespace MetricAlarm.Token

open Grammar

variable {cs : List Char} {t : Token} {ts : List Placed}

/-- Nothing of a text is lost between its tokens, and no token could be longer. -/
structure Lossless (cs : List Char) (ts : List Placed) : Prop where
  increasing : ts.Pairwise fun t u => t.position < u.position
  apart : ts.Pairwise fun t u => t.position + t.token.text.length ≤ u.position
  slice : ∀ t ∈ ts, (cs.drop t.position).take t.token.text.length = t.token.text.toList
  gaps : ∀ i c, cs[i]? = some c →
    (∀ t ∈ ts, i < t.position ∨ t.position + t.token.text.length ≤ i) → Text.isBlank c = true
  words : ∀ w p, ⟨.word w, p⟩ ∈ ts → IsName w ∧
    (∀ q c, p = q + 1 → cs[q]? = some c → isWordChar c = false) ∧
    ∀ c, cs[p + w.length]? = some c → isWordChar c = false
  signs : ∀ t ∈ ts, t.token = .less ∨ t.token = .greater → cs[t.position + 1]? ≠ some '='
  quotations : ∀ q p, ⟨.quoted q, p⟩ ∈ ts → IsQuotation q

theorem Stands.slice {offset : Nat} (h : Stands cs offset t) :
    (cs.drop offset).take t.text.length = t.text.toList := by
  obtain ⟨-, before, after, rfl, rfl, -, -⟩ := h
  rw [List.drop_left, ← String.length_toList, List.take_left]

/-- What follows a token. -/
theorem getElem?_behind (before after : List Char) (s : String) :
    (before ++ (s.toList ++ after))[before.length + s.length]? = after.head? := by
  rw [← String.length_toList, ← List.append_assoc, ← List.length_append,
    List.getElem?_append_right (Nat.le_refl _), Nat.sub_self, List.head?_eq_getElem?]

/-- What stands in front of a token. -/
theorem getElem?_before {before after : List Char} {q : Nat} (hq : before.length = q + 1) :
    (before ++ after)[q]? = before.getLast? := by
  rw [List.getElem?_append_left (by omega), List.getLast?_eq_getElem?, hq, Nat.add_sub_cancel]

theorem Tiles.lossless (h : Tiles 0 cs ts) : Lossless cs ts := by
  have hstands : ∀ t ∈ ts, Stands cs t.position t.token := by
    intro t ht
    obtain ⟨n, hn, hst⟩ := h.stands t ht
    rwa [hn, Nat.zero_add]
  refine ⟨?_, h.apart, fun t ht => (hstands t ht).slice, ?_, ?_, ?_, ?_⟩
  · refine h.apart.imp_of_mem fun ht _ hle => ?_
    have := (hstands _ ht).lexeme.length_pos
    omega
  · intro i c hi hout
    by_contra hc
    obtain ⟨t, ht, hle, hlt⟩ := h.covers hi (Bool.eq_false_iff.2 hc)
    rcases hout t ht with h | h <;> omega
  · intro w p hw
    obtain ⟨hlex, before, after, hcs, rfl, hbefore, hafter⟩ := hstands _ hw
    subst hcs
    refine ⟨hlex, fun q c hq hc => ?_, fun c hc => ?_⟩
    · rw [getElem?_before hq] at hc
      exact hbefore c hc
    · exact hafter c ((getElem?_behind before after w).symm.trans hc)
  · intro t ht hsign
    obtain ⟨-, before, after, hcs, hpos, -, hafter⟩ := hstands t ht
    have hnext : cs[t.position + t.token.text.length]? = after.head? := by
      rw [hcs, ← hpos]
      exact getElem?_behind before after t.token.text
    rcases hsign with hsign | hsign <;>
    · rw [hsign] at hnext hafter
      exact fun heq => hafter (hnext.symm.trans heq)
  · intro q p hq
    exact (hstands _ hq).lexeme

/-- A text that is read as tokens is made up of them and of blanks; a text that is not fails at the
first place that cannot be read. -/
theorem lex_lossless (text : String) :
    (∀ ts, lex text = .ok ts → Lossless text.toList ts) ∧
    ∀ e, lex text = .error e ↔ ∃ n f, FirstFault text.toList n f ∧
      e = .malformedText n (String.ofList f.token) f.fault :=
  ⟨fun _ h => (lex_eq_ok_iff.1 h).lossless, fun _ => lex_eq_error_iff⟩

/-- Tokens that touch each other, and a text whose quoted ampersand is not its first fault. -/
theorem lex_lossless_touching :
    Lossless "cpu>=\"公 &\"&&b<==1".toList
        [⟨.word "cpu", 0⟩, ⟨.greaterEqual, 3⟩, ⟨.quoted "\"公 &\"", 5⟩, ⟨.and, 10⟩, ⟨.word "b", 12⟩,
          ⟨.lessEqual, 13⟩, ⟨.equals, 15⟩, ⟨.word "1", 16⟩] ∧
      ∃ f, FirstFault "a\"&\"| &&\"".toList 4 f ∧ f.fault = .loneBar := by
  have hread : lex "cpu>=\"公 &\"&&b<==1" = .ok [⟨.word "cpu", 0⟩, ⟨.greaterEqual, 3⟩,
      ⟨.quoted "\"公 &\"", 5⟩, ⟨.and, 10⟩, ⟨.word "b", 12⟩, ⟨.lessEqual, 13⟩, ⟨.equals, 15⟩,
      ⟨.word "1", 16⟩] := by decide +kernel
  have hrefused : lex "a\"&\"| &&\"" = .error (.malformedText 4 "|" .loneBar) := by decide +kernel
  obtain ⟨n, f, hfault, he⟩ := ((lex_lossless "a\"&\"| &&\"").2 _).1 hrefused
  obtain ⟨rfl, -, hf⟩ := ExpressionError.malformedText.inj he
  exact ⟨(lex_lossless _).1 _ hread, f, hfault, hf.symm⟩

end MetricAlarm.Token
