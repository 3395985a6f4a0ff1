import MetricAlarm.Proofs.Token.Locality

/-!
# Tokens with spaces between them

Tokens that can stand in a text make up one when they are written with spaces between them. Main
statement: `readsAs_spaced`.
-/

namespace MetricAlarm.Token

open Grammar

/-- The text is read as these tokens. -/
def ReadsAs (text : String) (ts : List Token) : Prop :=
  ∃ ps, lex text = .ok ps ∧ tokens ps = ts

def spaced (ts : List Token) : String := " ".intercalate (ts.map text)

theorem SpellsApart.append {b : Char} {cs ds : List Char} {us vs : List Token}
    (h : SpellsApart cs us) (hb : Text.isBlank b = true) (h' : SpellsApart ds vs) :
    SpellsApart (cs ++ b :: ds) (us ++ vs) := by
  intro rest ws hr hrest
  have hmore := lexes_blank hb (h' hr hrest)
  rw [List.append_assoc, List.append_assoc]
  exact h (separates_blank hb) hmore

theorem IsLexeme.spellsApart {t : Token} (h : IsLexeme t) : SpellsApart t.text.toList [t] := by
  intro rest vs hr hrest
  exact h.lexes (hr.endsBefore t) hrest

theorem spellsApart_spaced {ts : List Token} (h : ∀ t ∈ ts, IsLexeme t) :
    SpellsApart (spaced ts).toList ts := by
  induction ts with
  | nil => exact spells_nil.apart
  | cons t ts ih =>
    obtain ⟨ht, hts⟩ := List.forall_mem_cons.1 h
    cases ts with
    | nil => simpa [spaced] using ht.spellsApart
    | cons u ts =>
      have hall := ht.spellsApart.append (b := ' ') (by decide) (ih hts)
      rw [spaced, List.map_cons, List.map_cons, String.intercalate_cons_cons]
      simpa [spaced] using hall

theorem readsAs_spaced {ts : List Token} (h : ∀ t ∈ ts, IsLexeme t) : ReadsAs (spaced ts) ts :=
  (spellsApart_spaced h).lex

end MetricAlarm.Token
