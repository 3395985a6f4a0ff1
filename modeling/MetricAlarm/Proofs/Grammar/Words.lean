import MetricAlarm.Proofs.Grammar.Sentence

/-!
# Readers and phrases

Each reader takes exactly the phrases of its kind. `Takes` is the one direction: what a reader takes
from the front is always such a phrase. `Finds` is the other: it takes a whole phrase when what
follows cannot belong to it. Here are the words with a meaning and the readers of one token. Main
statements: `comparatorOf?_eq_some`, `spells_iff` and `number?_eq_some`.
-/

namespace MetricAlarm.Grammar

/-- Tokens without their places. -/
def tokens (ts : List Placed) : List Token := ts.map Placed.token

@[simp] theorem tokens_nil : tokens [] = [] := rfl

@[simp] theorem tokens_cons (t : Placed) (ts : List Placed) :
    tokens (t :: ts) = t.token :: tokens ts := rfl

@[simp] theorem tokens_append (ts us : List Placed) :
    tokens (ts ++ us) = tokens ts ++ tokens us := List.map_append

theorem tokens_eq_nil {ts : List Placed} : tokens ts = [] ↔ ts = [] := List.map_eq_nil_iff

theorem tokens_eq_cons {ts : List Placed} {t : Token} {us : List Token} :
    tokens ts = t :: us ↔ ∃ p ts', ts = ⟨t, p⟩ :: ts' ∧ tokens ts' = us := by
  constructor
  · intro h
    obtain ⟨⟨_, p⟩, ts', rfl, rfl, hts⟩ := List.map_eq_cons_iff.1 h
    exact ⟨p, ts', rfl, hts⟩
  · rintro ⟨p, ts', rfl, rfl⟩
    rfl

theorem tokens_eq_append {ts : List Placed} {us vs : List Token} :
    tokens ts = us ++ vs ↔ ∃ us' vs', ts = us' ++ vs' ∧ tokens us' = us ∧ tokens vs' = vs :=
  List.map_eq_append_iff

theorem tokens_drop (ts : List Placed) (n : Nat) : tokens (ts.drop n) = (tokens ts).drop n :=
  List.map_drop

/-- What the reader takes from the front of these tokens is a phrase. -/
def TakesAt {α : Type} (r : Reader α) (phrase : List Token → α → Prop) (ts : List Placed) : Prop :=
  ∀ ⦃rest : List Placed⦄ ⦃a : α⦄, r ts = .ok (a, rest) →
    ∃ us, ts = us ++ rest ∧ phrase (tokens us) a

def Takes {α : Type} (r : Reader α) (phrase : List Token → α → Prop) : Prop :=
  ∀ ⦃ts : List Placed⦄, TakesAt r phrase ts

/-- The reader takes each phrase in front of something that may follow it. -/
def Finds {α : Type} (r : Reader α) (phrase : List Token → α → Prop)
    (follow : List Placed → Prop) : Prop :=
  ∀ ⦃ts rest : List Placed⦄ ⦃a : α⦄, phrase (tokens ts) a → follow rest →
    r (ts ++ rest) = .ok (a, rest)

/-- The tokens do not begin with one of a class. -/
def NotFirst (class_ : Token → Prop) (ts : List Placed) : Prop := ∀ t ∈ ts.head?, ¬ class_ t.token

theorem notFirst_iff {class_ : Token → Prop} {ts : List Placed} :
    NotFirst class_ ts ↔ ∀ t ∈ (tokens ts).head?, ¬ class_ t := by
  cases ts <;> simp [NotFirst]

/-! ## Words with a meaning -/

theorem integer?_eq_some {w : String} {n : UInt32} : integer? w = some n ↔ IsInteger w n := by
  constructor
  · intro h
    simp only [integer?, Text.natural?] at h
    split at h
    · next m hm =>
      split at hm
      · next hw =>
        obtain rfl := Option.some.inj hm
        split at h
        · next hlt =>
          obtain rfl := Option.some.inj h
          exact ⟨hw.1, List.all_eq_true.1 hw.2, (UInt32.toNat_ofNat_of_lt' hlt).symm⟩
        · cases h
      · cases hm
    · cases h
  · rintro ⟨hne, hd, hv⟩
    have hlt : n.toNat < UInt32.size := n.toNat_lt
    simp only [integer?, Text.natural?, if_pos (And.intro hne (List.all_eq_true.2 hd)), hv,
      if_pos hlt, UInt32.ofNat_toNat]

theorem number?_eq_some {w : String} {x : Float} (hx : x.isFinite = true) :
    number? w = some x ↔ IsThreshold w x := by
  constructor
  · intro h
    simp only [number?] at h
    split at h
    · next hn => exact ⟨hn, h, hx⟩
    · cases h
  · rintro ⟨hn, hv, -⟩
    simp only [number?, if_pos hn, hv]

theorem sameIgnoringCase_iff {a b : String} :
    Text.sameIgnoringCase a b = true ↔ a.toList.map Char.toLower = b.toList.map Char.toLower := by
  simp [Text.sameIgnoringCase]

theorem ofName?_eq_some {w : String} {f : Aggregate} :
    Aggregate.ofName? w = some f ↔ Text.sameIgnoringCase w f.name = true := by
  rw [Text.sameIgnoringCase_comm]
  constructor
  · intro h
    have h : Aggregate.all.find? (fun a => Text.sameIgnoringCase a.name w) = some f := h
    simpa using List.find?_some h
  · intro h
    rw [← Aggregate.ofName?_name f]
    simp only [Aggregate.ofName?]
    congr 1
    funext g
    rw [Bool.eq_iff_iff, sameIgnoringCase_iff, sameIgnoringCase_iff, sameIgnoringCase_iff.1 h]

/-- The letters of comparators have no other small forms than the usual ones. -/
theorem lowerForm_eq_iff {c d : Char} (hd : d ∈ ['l', 't', 'e', 'g']) :
    Text.lowerForm c = d ↔ c.toLower = d := by
  unfold Text.lowerForm
  split
  · next h =>
    have hc : c = '\u212a' := Char.toNat_inj.1 h
    subst hc
    simp only [List.mem_cons, List.not_mem_nil, or_false] at hd
    rcases hd with rfl | rfl | rfl | rfl <;> decide
  · rfl

theorem map_lowerForm_eq_iff {cs ds : List Char} (hd : ∀ d ∈ ds, d ∈ ['l', 't', 'e', 'g']) :
    cs.map Text.lowerForm = ds ↔ cs.map Char.toLower = ds := by
  induction cs generalizing ds with
  | nil => rfl
  | cons c cs ih =>
    cases ds with
    | nil => simp
    | cons d ds =>
      rw [List.map_cons, List.map_cons, List.cons.injEq, List.cons.injEq,
        lowerForm_eq_iff (hd d List.mem_cons_self), ih fun e he => hd e (List.mem_cons_of_mem _ he)]

theorem lower_eq_word {w : String} {c : Comparator} :
    Text.lower w = c.word ↔ Text.sameIgnoringCase w c.word = true := by
  have hall : c.word.toList.all (· ∈ ['l', 't', 'e', 'g']) = true := by cases c <;> decide
  have hc : ∀ d ∈ c.word.toList, d ∈ ['l', 't', 'e', 'g'] := fun d hd =>
    of_decide_eq_true (List.all_eq_true.1 hall d hd)
  have hl : c.word.toList.map Char.toLower = c.word.toList := by cases c <;> decide
  rw [sameIgnoringCase_iff, hl, ← map_lowerForm_eq_iff hc, ← String.toList_inj, Text.lower,
    String.toList_ofList]

theorem ofText?_eq_some {w : String} {c : Comparator} :
    Comparator.ofText? w = some c ↔ w = c.symbol ∨ Text.sameIgnoringCase w c.word = true := by
  rw [← lower_eq_word]
  constructor
  · intro h
    simp only [Comparator.ofText?] at h
    split at h
    · next d hd =>
      obtain rfl := Option.some.inj h
      have hs : d.symbol = w := by simpa using List.find?_some hd
      exact Or.inl hs.symm
    · have h : Comparator.all.find? (fun d => d.word == Text.lower w) = some c := h
      have hw : c.word = Text.lower w := by simpa using List.find?_some h
      exact Or.inr hw.symm
  · rintro (rfl | h)
    · exact Comparator.ofText?_symbol c
    · have hsign : Comparator.all.find? (fun d => d.symbol == w) = none := by
        rw [List.find?_eq_none]
        intro d _ hd
        rw [← eq_of_beq hd] at h
        revert h
        cases c <;> cases d <;> decide
      simp only [Comparator.ofText?, hsign, Comparator.ofWord?, h]
      cases c <;> rfl

theorem comparatorOf?_eq_some {t : Token} {c : Comparator} :
    comparatorOf? t = some c ↔ Relop t c := by
  constructor
  · intro h
    cases t with
    | less => cases h; exact .less
    | lessEqual => cases h; exact .lessEqual
    | greater => cases h; exact .greater
    | greaterEqual => cases h; exact .greaterEqual
    | word w => exact .word (ofText?_eq_some.1 h)
    | _ => cases h
  · intro h
    cases h with
    | word h => exact ofText?_eq_some.2 h
    | _ => rfl

theorem spells_iff {t : Token} {c : Connective} : spells c t = true ↔ Junction t c := by
  constructor
  · intro h
    cases t with
    | and => cases c with | and => exact .and | or => cases h
    | or => cases c with | and => cases h | or => exact .or
    | word w => exact .word h
    | _ => cases h
  · intro h
    cases h with
    | and => rfl
    | or => rfl
    | word h => exact h

/-! ## Readers of one token -/

theorem takes_integer {stop : Nat} {fault : SyntaxFault} :
    Takes (integer stop fault) fun ts n => ∃ w, ts = [.word w] ∧ IsInteger w n := by
  intro ts rest n h
  unfold integer at h
  split at h
  · next w p us =>
    split at h
    · next m hm =>
      simp only [Except.ok.injEq, Prod.mk.injEq] at h
      obtain ⟨rfl, rfl⟩ := h
      exact ⟨[⟨.word w, p⟩], rfl, w, rfl, integer?_eq_some.1 hm⟩
    · cases h
  · cases h

theorem takes_comparator {stop : Nat} :
    Takes (comparator stop) fun ts c => ∃ t, ts = [t] ∧ Relop t c := by
  intro ts rest c h
  unfold comparator at h
  split at h
  · cases h
  · next t us =>
    split at h
    · next d hd =>
      simp only [Except.ok.injEq, Prod.mk.injEq] at h
      obtain ⟨rfl, rfl⟩ := h
      exact ⟨[t], rfl, t.token, rfl, comparatorOf?_eq_some.1 hd⟩
    · cases h

theorem takes_threshold {stop : Nat} :
    Takes (threshold stop) fun ts x => ∃ w, ts = [.word w] ∧ IsThreshold w x := by
  intro ts rest x h
  unfold threshold at h
  split at h
  · next w p us =>
    split at h
    · next y hy =>
      split at h
      · next hf =>
        simp only [Except.ok.injEq, Prod.mk.injEq] at h
        obtain ⟨rfl, rfl⟩ := h
        exact ⟨[⟨.word w, p⟩], rfl, w, rfl, (number?_eq_some hf).1 hy⟩
      · cases h
    · cases h
  · cases h

theorem integer_word {stop : Nat} {fault : SyntaxFault} {w : String} {n : UInt32}
    (h : IsInteger w n) (p : Nat) (ts : List Placed) :
    integer stop fault (⟨.word w, p⟩ :: ts) = .ok (n, ts) := by
  simp only [integer, integer?_eq_some.2 h]

theorem comparator_token {stop : Nat} {t : Placed} {c : Comparator} (h : Relop t.token c)
    (ts : List Placed) : comparator stop (t :: ts) = .ok (c, ts) := by
  simp only [comparator, comparatorOf?_eq_some.2 h]

theorem threshold_word {stop : Nat} {w : String} {x : Float} (h : IsThreshold w x) (p : Nat)
    (ts : List Placed) : threshold stop (⟨.word w, p⟩ :: ts) = .ok (x, ts) := by
  simp only [threshold, (number?_eq_some h.finite).2 h, h.finite, if_true]

end MetricAlarm.Grammar
