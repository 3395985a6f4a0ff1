import Mathlib.Data.List.Chain
import MetricAlarm.Proofs.Token.Locality

/-!
# The same tokens laid out anew

Tokens may be written with any blanks around them; only two that would be read as something else
must be kept apart (`IsLayout`). Main statement: `lex_written`, a layout of the tokens of a text is
read as these tokens.
-/

namespace MetricAlarm.Token

open Grammar

/-- Two tokens that would be read as something else if nothing stood between them. -/
inductive Merge : Token → Token → Prop
  | words (v w : String) : Merge (.word v) (.word w)
  | less : Merge .less .equals
  | greater : Merge .greater .equals

/-- Tokens, each behind a text of its own, and a text at the end. -/
def written (last : String) : List (String × Token) → String
  | [] => last
  | (gap, t) :: items => gap ++ t.text ++ written last items

/-- Nothing but blanks is written around the tokens, and something between two that would merge. -/
structure IsLayout (items : List (String × Token)) (last : String) : Prop where
  blank : ∀ i ∈ items, Text.allBlank i.1 = true
  last : Text.allBlank last = true
  apart : items.IsChain fun i j => Merge i.2 j.2 → j.1 ≠ ""

variable {t u : Token} {gap last : String} {items : List (String × Token)} {cs rest : List Char}

theorem IsLexeme.first (h : IsLexeme u) : ∃ c w, u.text.toList = c :: w ∧
    (isWordChar c = true → ∃ v, u = .word v) ∧ (c = '=' → u = .equals) := by
  cases u with
  | word w =>
    obtain ⟨c, cs, hcs⟩ := List.exists_cons_of_ne_nil h.nonempty
    refine ⟨c, cs, hcs, fun _ => ⟨w, rfl⟩, ?_⟩
    rintro rfl
    exact absurd (h.chars '=' (hcs ▸ List.mem_cons_self)) (by decide)
  | quoted q =>
    obtain ⟨cs, -, hq⟩ := h
    exact ⟨'"', cs ++ ['"'], hq, fun hc => absurd hc (by decide), fun hc => absurd hc (by decide)⟩
  | equals => exact ⟨'=', [], rfl, fun hc => absurd hc (by decide), fun _ => rfl⟩
  | _ => exact ⟨_, _, rfl, fun hc => absurd hc (by decide), fun hc => absurd hc (by decide)⟩

theorem endsBefore_of_not_merge (hu : IsLexeme u) (h : ¬ Merge t u) :
    EndsBefore (u.text.toList ++ rest) t := by
  obtain ⟨c, w, hc, hword, hequals⟩ := hu.first
  rw [hc]
  cases t with
  | word v =>
    intro d hd
    obtain rfl := Option.some.inj hd
    rw [Bool.eq_false_iff]
    intro hchar
    obtain ⟨v', rfl⟩ := hword hchar
    exact h (.words v v')
  | less =>
    intro heq
    obtain rfl := hequals (Option.some.inj heq)
    exact h .less
  | greater =>
    intro heq
    obtain rfl := hequals (Option.some.inj heq)
    exact h .greater
  | _ => trivial

/-- What is written behind a token does not go on with it. -/
theorem IsLayout.endsBefore (h : IsLayout ((gap, t) :: items) last)
    (hlex : ∀ i ∈ items, IsLexeme i.2) : EndsBefore (written last items).toList t := by
  cases items with
  | nil =>
    have hlast := separates_blanks (mem_allBlank h.last) separates_nil
    rw [List.append_nil] at hlast
    exact hlast.endsBefore t
  | cons i items =>
    obtain ⟨gap', u⟩ := i
    simp only [written, String.toList_append, List.append_assoc]
    by_cases hgap : gap' = ""
    · have hmerge : ¬ Merge t u := fun hmerge => (List.isChain_cons_cons.1 h.apart).1 hmerge hgap
      rw [hgap]
      exact endsBefore_of_not_merge (hlex _ List.mem_cons_self) hmerge
    · have hblank := mem_allBlank (h.blank (gap', u) (by simp))
      cases hchars : gap'.toList with
      | nil => exact absurd (String.toList_eq_nil_iff.1 hchars) hgap
      | cons b bs =>
        rw [hchars] at hblank
        exact (separates_blank (hblank b List.mem_cons_self)).endsBefore t

theorem exists_tiles_written (h : IsLayout items last) (hlex : ∀ i ∈ items, IsLexeme i.2)
    (p : Nat) : ∃ ts, Tiles p (written last items).toList ts ∧ tokens ts = items.map Prod.snd := by
  induction items generalizing p with
  | nil =>
    refine ⟨[], ?_, rfl⟩
    have hnil := Tiles.blanks (mem_allBlank h.last) (.nil (p + last.toList.length))
    rwa [List.append_nil] at hnil
  | cons i items ih =>
    obtain ⟨gap, t⟩ := i
    obtain ⟨hgap, hblank⟩ := List.forall_mem_cons.1 h.blank
    obtain ⟨ht, hlex⟩ := List.forall_mem_cons.1 hlex
    have hitems : IsLayout items last := ⟨hblank, h.last, h.apart.tail⟩
    obtain ⟨ts, hts, htokens⟩ := ih hitems hlex (p + gap.toList.length + t.text.length)
    refine ⟨⟨t, p + gap.toList.length⟩ :: ts, ?_, by simp [htokens]⟩
    have htoken := Tiles.blanks (mem_allBlank hgap) (.token ht (h.endsBefore hlex) hts)
    simpa [written] using htoken

/-- A layout of the tokens of a text is read as the same tokens. -/
theorem lex_written {text : String} {ts : List Placed} (hlex : lex text = .ok ts)
    (hitems : items.map Prod.snd = tokens ts) (h : IsLayout items last) :
    ∃ ts', lex (written last items) = .ok ts' ∧ tokens ts' = tokens ts := by
  have hlexemes : ∀ i ∈ items, IsLexeme i.2 := by
    intro i hi
    exact lexemes_of_lex hlex i.2 (hitems ▸ List.mem_map_of_mem hi)
  obtain ⟨ts', hts', htokens⟩ := exists_tiles_written h hlexemes 0
  exact ⟨ts', lex_eq_ok_iff.2 hts', htokens.trans hitems⟩

end MetricAlarm.Token
