import MetricAlarm.Proofs.Token.Scan

/-!
# Texts as tilings by tokens

The tokens of a text and the blanks between them are laid out one behind the other, each token as
long as it can be. Main statements: `lex_eq_ok_iff`, a text is read as the tokens that tile it, and
`Tiles.stands`, `Tiles.covers` and `Tiles.apart`, where these tokens stand.
-/

namespace MetricAlarm.Token

open Grammar

/-- Tokens, each as long as it can be, and blanks between them make up the characters from the
offset `p` on. -/
inductive Tiles : Nat → List Char → List Placed → Prop
  | nil (p : Nat) : Tiles p [] []
  | blank {p : Nat} {c : Char} {cs : List Char} {ts : List Placed} : Text.isBlank c = true →
      Tiles (p + 1) cs ts → Tiles p (c :: cs) ts
  | token {p : Nat} {t : Token} {rest : List Char} {ts : List Placed} : IsLexeme t →
      EndsBefore rest t → Tiles (p + t.text.length) rest ts →
      Tiles p (t.text.toList ++ rest) (⟨t, p⟩ :: ts)

variable {p : Nat} {cs rest : List Char} {t : Token} {ts : List Placed}

theorem IsLexeme.length_pos (h : IsLexeme t) : 0 < t.text.length := by
  obtain ⟨c, w, hw, -⟩ := h.exists_cons
  rw [← String.length_toList, hw]
  exact Nat.succ_pos _

theorem lexFrom_eq_ok_iff : lexFrom p cs = .ok ts ↔ Tiles p cs ts := by
  constructor
  · intro h
    fun_induction lexFrom p cs generalizing ts with
    | case1 p =>
      obtain rfl := Except.ok.inj h
      exact .nil p
    | case2 p c cs hb ih => exact .blank hb (ih h)
    | case3 p c cs hb f hf => cases h
    | case4 p c cs hb t rest ht ih =>
      obtain ⟨us, hus, rfl⟩ := map_eq_ok h
      obtain ⟨hlex, hends, hcs⟩ := (scan_eq_ok_iff (Bool.eq_false_iff.2 hb)).1 ht
      rw [hcs]
      exact .token hlex hends (ih hus)
  · intro h
    induction h with
    | nil p => rw [lexFrom]
    | blank hb _ ih => rw [lexFrom, if_pos hb, ih]
    | @token p t rest ts ht hends _ ih =>
      obtain ⟨c, w, hw, hb⟩ := ht.exists_cons
      have hscan : scan c (w ++ rest) = .ok (t, rest) :=
        ht.scan hends (by rw [hw, List.cons_append])
      rw [hw, List.cons_append, lexFrom_scan p hb hscan, ih]
      rfl

theorem lex_eq_ok_iff {text : String} : lex text = .ok ts ↔ Tiles 0 text.toList ts :=
  lexFrom_eq_ok_iff

theorem Tiles.lexemes (h : Tiles p cs ts) : ∀ t ∈ tokens ts, IsLexeme t := by
  induction h with
  | nil p => exact List.forall_mem_nil _
  | blank _ _ ih => exact ih
  | token ht _ _ ih => exact List.forall_mem_cons.2 ⟨ht, ih⟩

/-- The words and the quoted strings among the tokens of a text. -/
theorem lexemes_of_lex {text : String} (h : lex text = .ok ts) : ∀ t ∈ tokens ts, IsLexeme t :=
  (lex_eq_ok_iff.1 h).lexemes

theorem Tiles.blanks {before : List Char} (hbefore : ∀ b ∈ before, Text.isBlank b = true)
    (h : Tiles (p + before.length) cs ts) : Tiles p (before ++ cs) ts := by
  induction before generalizing p with
  | nil => exact h
  | cons b before ih =>
    obtain ⟨hb, hbefore⟩ := List.forall_mem_cons.1 hbefore
    refine .blank hb (ih hbefore ?_)
    rwa [List.length_cons, ← Nat.add_assoc, Nat.add_right_comm] at h

/-! ## Places of tokens -/

/-- Where a token may start: a word only where no other word ends. -/
def StartsBehind (cs : List Char) : Token → Prop
  | .word _ => ∀ c ∈ cs.getLast?, isWordChar c = false
  | _ => True

/-- The token stands at an offset of the characters, and is as long as it can be. -/
structure Stands (cs : List Char) (offset : Nat) (t : Token) : Prop where
  lexeme : IsLexeme t
  split : ∃ before after, cs = before ++ (t.text.toList ++ after) ∧ before.length = offset ∧
    StartsBehind before t ∧ EndsBefore after t

theorem StartsBehind.append {before : List Char} (h : StartsBehind before t) (front : List Char)
    (hfront : before = [] → StartsBehind front t) : StartsBehind (front ++ before) t := by
  cases before with
  | nil => rw [List.append_nil]; exact hfront rfl
  | cons c before =>
    cases t with
    | word w =>
      intro d hd
      rw [List.getLast?_append, List.getLast?_cons, Option.some_or, ← List.getLast?_cons] at hd
      exact h d hd
    | _ => trivial

/-- A token that comes at once behind another one: two words would be one. -/
theorem IsLexeme.startsBehind {u : Token} {after : List Char} (hu : IsLexeme u) (ht : IsLexeme t)
    (hends : EndsBefore (u.text.toList ++ after) t) : StartsBehind t.text.toList u := by
  cases u with
  | word w =>
    intro c hc
    cases t with
    | word v =>
      obtain ⟨d, ds, hds⟩ := List.exists_cons_of_ne_nil hu.nonempty
      have hd : isWordChar d = true := hu.chars d (hds ▸ List.mem_cons_self)
      have hstop : isWordChar d = false := hends d (by simp [text, hds])
      rw [hd] at hstop
      cases hstop
    | quoted q =>
      obtain ⟨ds, -, hq⟩ := ht
      have hlast : q.toList.getLast? = some '"' := by
        rw [hq, ← List.cons_append, List.getLast?_concat]
      obtain rfl := Option.some.inj (hlast.symm.trans hc)
      decide
    | _ =>
      obtain rfl := Option.some.inj hc
      decide
  | _ => trivial

theorem Tiles.stands (h : Tiles p cs ts) :
    ∀ t ∈ ts, ∃ n, t.position = p + n ∧ Stands cs n t.token := by
  induction h with
  | nil p => exact List.forall_mem_nil _
  | @blank p c cs ts hc _ ih =>
    intro t ht
    obtain ⟨n, hn, hlexeme, before, after, rfl, rfl, hbefore, hafter⟩ := ih t ht
    refine ⟨before.length + 1, by omega, hlexeme, c :: before, after, rfl, rfl, ?_, hafter⟩
    have hblank : isWordChar c = false := by simp [isWordChar, hc]
    refine hbefore.append [c] fun _ => ?_
    cases t.token with
    | word w =>
      intro d hd
      obtain rfl := Option.some.inj hd
      exact hblank
    | _ => trivial
  | @token p t rest ts hlexeme hends _ ih =>
    intro u hu
    rcases List.mem_cons.1 hu with rfl | hu
    · refine ⟨0, rfl, hlexeme, [], rest, rfl, rfl, ?_, hends⟩
      cases t with
      | word w => simp [StartsBehind]
      | _ => trivial
    · obtain ⟨n, hn, hlex, before, after, rfl, rfl, hbefore, hafter⟩ := ih u hu
      refine ⟨t.text.length + before.length, by omega, hlex, t.text.toList ++ before, after,
        by simp, by simp [String.length_toList], ?_, hafter⟩
      refine hbefore.append _ fun hnil => ?_
      subst hnil
      exact hlex.startsBehind hlexeme hends

/-- What is not blank belongs to a token. -/
theorem Tiles.covers (h : Tiles p cs ts) {i : Nat} {c : Char} (hi : cs[i]? = some c)
    (hc : Text.isBlank c = false) :
    ∃ t ∈ ts, t.position ≤ p + i ∧ p + i < t.position + t.token.text.length := by
  induction h generalizing i with
  | nil p => simp at hi
  | @blank p d cs ts hd _ ih =>
    cases i with
    | zero =>
      obtain rfl := Option.some.inj hi
      rw [hd] at hc
      cases hc
    | succ i =>
      obtain ⟨t, ht, hle, hlt⟩ := ih hi
      exact ⟨t, ht, by omega, by omega⟩
  | @token p t rest ts _ _ _ ih =>
    by_cases hlt : i < t.text.length
    · exact ⟨⟨t, p⟩, List.mem_cons_self, Nat.le_add_right p i, Nat.add_lt_add_left hlt p⟩
    · rw [List.getElem?_append_right (by rw [String.length_toList]; omega)] at hi
      obtain ⟨u, hu, hle, hup⟩ := ih hi
      rw [String.length_toList] at hle hup
      exact ⟨u, List.mem_cons_of_mem _ hu, by omega, by omega⟩

/-- A text without tokens is blank. -/
theorem lex_eq_nil_iff {text : String} : lex text = .ok [] ↔ Text.allBlank text = true := by
  rw [lex_eq_ok_iff, Text.allBlank, List.all_eq_true]
  constructor
  · intro h c hc
    obtain ⟨i, hi⟩ := List.getElem?_of_mem hc
    by_contra hblank
    obtain ⟨t, ht, -⟩ := h.covers hi (Bool.eq_false_iff.2 hblank)
    cases ht
  · intro h
    have hall := Tiles.blanks h (.nil (0 + text.toList.length))
    rwa [List.append_nil] at hall

theorem Tiles.le_position (h : Tiles p cs ts) : ∀ t ∈ ts, p ≤ t.position := by
  intro t ht
  obtain ⟨n, hn, -⟩ := h.stands t ht
  omega

/-- Tokens do not overlap. -/
theorem Tiles.apart (h : Tiles p cs ts) :
    ts.Pairwise fun t u => t.position + t.token.text.length ≤ u.position := by
  induction h with
  | nil p => exact .nil
  | blank _ _ ih => exact ih
  | token _ _ h ih => exact .cons (fun u hu => h.le_position u hu) ih

end MetricAlarm.Token
