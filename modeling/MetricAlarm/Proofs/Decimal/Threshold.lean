import MetricAlarm.Proofs.Decimal.Reading
import MetricAlarm.Proofs.Decimal.Shortest
import MetricAlarm.Proofs.Token.Lexeme

/-!
# Numbers are read back from their texts

Main statement: `isThreshold_textWithFraction`, the text of a finite double looks like a number and
is read as the same double, bit for bit.
-/

namespace MetricAlarm

open Grammar Token

/-! ## Words of digits -/

theorem toList_toString (n : Nat) : (toString n).toList = Nat.toDigits 10 n := by
  rw [Nat.toString_eq_repr, Nat.toList_repr]

theorem isDigit_toDigits {n : Nat} : ∀ c ∈ Nat.toDigits 10 n, c.isDigit = true :=
  fun _ hc => Nat.isDigit_of_mem_toDigits (by decide) (by decide) hc

theorem isInteger_toString (n : UInt32) : IsInteger (toString n.toNat) n := by
  refine ⟨?_, ?_, ?_⟩ <;> rw [toList_toString]
  · exact Nat.toDigits_ne_nil
  · exact isDigit_toDigits
  · exact Text.digitsValue_toDigits _

theorem isWordChar_of_isDigit {c : Char} (h : c.isDigit = true) : isWordChar c = true := by
  have hr : isRestricted c = false := by
    rw [Bool.eq_false_iff]
    intro hr
    have hall : restricted.all (!·.isDigit) = true := by decide
    have hc := List.all_eq_true.1 hall c (List.contains_iff_mem.1 hr)
    rw [h] at hc
    cases hc
  have hb : Text.isBlank c = false := by
    rw [Bool.eq_false_iff]
    intro hb
    obtain ⟨r, hr, hlo, hhi⟩ := (Text.inRanges_iff _ _).1 hb
    have hall : ∀ r ∈ Text.blanks, r.2 < 48 ∨ 57 < r.1 := by decide
    have := hall r hr
    have := Text.isDigit_bounds h
    omega
  simp [isWordChar, hb, hr]

theorem isName_toString (n : Nat) : IsName (toString n) := by
  refine ⟨?_, ?_⟩ <;> rw [toList_toString]
  · exact Nat.toDigits_ne_nil
  · exact fun c hc => isWordChar_of_isDigit (isDigit_toDigits c hc)

namespace Decimal

/-! ## The digits of a double -/

/-- Digits that always have a point among them. -/
def pointed (cs : List Char) : List Char := if cs.contains '.' then cs else cs ++ ['.', '0']

theorem isDigit_zeros {n : Nat} : ∀ c ∈ List.replicate n '0', c.isDigit = true :=
  fun _ hc => List.eq_of_mem_replicate hc ▸ rfl

theorem pointed_of_digits {cs : List Char} (h : ∀ c ∈ cs, c.isDigit = true) :
    pointed cs = cs ++ '.' :: ['0'] := by
  have hpoint : cs.contains '.' = false := by
    rw [Bool.eq_false_iff]
    intro hc
    exact absurd (h '.' (List.contains_iff_mem.1 hc)) (by decide)
  rw [pointed, hpoint]
  rfl

theorem pointed_of_point (ws fs : List Char) : pointed (ws ++ '.' :: fs) = ws ++ '.' :: fs := by
  rw [pointed, if_pos (by simp)]

section
variable {ds : List Char} {k n : Nat}

/-- Digits and the zeros of a power of ten. -/
theorem fixedPoint_whole (hne : ds ≠ []) (hds : ∀ c ∈ ds, c.isDigit = true)
    (hvalue : Text.digitsValue ds = k) :
    FixedPoint (ds ++ List.replicate n '0') ['0'] (k * 10 ^ n) := by
  refine ⟨by simp [hne], by simp, ?_, ?_⟩
  · exact List.forall_mem_append.2 ⟨List.forall_mem_append.2 ⟨hds, isDigit_zeros⟩, by simp⟩
  · have hzero : Text.digitsValue ['0'] = 0 := rfl
    rw [Text.digitsValue_append, Text.digitsValue_append, Text.digitsValue_zeros, hvalue, hzero,
      List.length_replicate, List.length_singleton]
    push_cast
    ring

/-- Digits with the point among them. -/
theorem fixedPoint_split (hne : ds ≠ []) (hds : ∀ c ∈ ds, c.isDigit = true)
    (hvalue : Text.digitsValue ds = k) (hn : n ≠ 0) (hlt : n < ds.length) :
    FixedPoint (ds.take (ds.length - n)) (ds.drop (ds.length - n)) (k / 10 ^ n) := by
  have hlength : (ds.drop (ds.length - n)).length = n := by
    rw [List.length_drop]
    omega
  refine ⟨?_, ?_, by rwa [List.take_append_drop], ?_⟩
  · rw [Ne, List.take_eq_nil_iff]
    rintro (h | h)
    · omega
    · exact hne h
  · exact List.ne_nil_of_length_pos (by omega)
  · rw [List.take_append_drop, hvalue, hlength, div_mul_cancel₀ _ (by positivity)]

/-- Digits behind the point. -/
theorem fixedPoint_behind (hne : ds ≠ []) (hds : ∀ c ∈ ds, c.isDigit = true)
    (hvalue : Text.digitsValue ds = k) (hge : ds.length ≤ n) :
    FixedPoint ['0'] (List.replicate (n - ds.length) '0' ++ ds) (k / 10 ^ n) := by
  have hlength : (List.replicate (n - ds.length) '0' ++ ds).length = n := by
    rw [List.length_append, List.length_replicate]
    omega
  refine ⟨by simp, by simp [hne], ?_, ?_⟩
  · exact List.forall_mem_append.2 ⟨by simp, List.forall_mem_append.2 ⟨isDigit_zeros, hds⟩⟩
  · have hzero : Text.digitsValue ['0'] = 0 := rfl
    rw [hlength, div_mul_cancel₀ _ (by positivity), Text.digitsValue_append,
      Text.digitsValue_append, Text.digitsValue_zeros, hvalue, hzero, Nat.mul_zero, Nat.mul_zero,
      Nat.zero_add, Nat.zero_add]

end

/-- A decimal in positional notation shows its value. -/
theorem exists_fixedPoint (k : Nat) (p : Int) :
    ∃ ws fs, pointed (positional k p) = ws ++ '.' :: fs ∧ FixedPoint ws fs (k * 10 ^ p) := by
  obtain ⟨ds, hds⟩ : ∃ ds, ds = Nat.toDigits 10 k := ⟨_, rfl⟩
  have hdigits : ∀ c ∈ ds, c.isDigit = true := hds ▸ isDigit_toDigits
  have hne : ds ≠ [] := hds ▸ Nat.toDigits_ne_nil
  have hvalue : Text.digitsValue ds = k := hds ▸ Text.digitsValue_toDigits k
  simp only [positional, ← hds]
  split
  · next hp =>
    obtain ⟨n, rfl⟩ := Int.eq_ofNat_of_zero_le (a := p) (by omega)
    rw [zpow_natCast]
    exact ⟨_, _, pointed_of_digits (List.forall_mem_append.2 ⟨hdigits, isDigit_zeros⟩),
      fixedPoint_whole hne hdigits hvalue⟩
  · next hp =>
    obtain ⟨n, hn⟩ : ∃ n : Nat, n = (-p).toNat := ⟨_, rfl⟩
    obtain rfl : p = -(n : Int) := by omega
    rw [zpow_neg, zpow_natCast, ← div_eq_mul_inv]
    rw [← hn] at hp ⊢
    split
    · next hlt => exact ⟨_, _, pointed_of_point _ _, fixedPoint_split hne hdigits hvalue hp hlt⟩
    · next hge =>
      exact ⟨_, _, pointed_of_point ['0'] _, fixedPoint_behind hne hdigits hvalue (by omega)⟩

theorem toList_text {x : Float} (h : x.isFinite = true) :
    (text x).toList = signText (isNegative x) ++ magnitudeText x := by
  rw [text, isNaN_of_isFinite h, h]
  exact String.toList_ofList

theorem toList_textWithFraction {x : Float} (h : x.isFinite = true) :
    (textWithFraction x).toList = signText (isNegative x) ++ pointed (magnitudeText x) := by
  have hcontains : (text x).toList.contains '.' = (magnitudeText x).contains '.' := by
    rw [toList_text h]
    cases isNegative x <;> rfl
  simp only [textWithFraction, pointed, hcontains, h]
  split <;> simp_all [toList_text h]

/-- The text of a finite double has digits around a point and is read as the double. -/
theorem exists_digits {x : Float} (h : x.isFinite = true) :
    ∃ ws fs v, (textWithFraction x).toList = signText (isNegative x) ++ (ws ++ '.' :: fs) ∧
      FixedPoint ws fs v ∧ readPlain? (textWithFraction x).toList = some x := by
  rw [toList_textWithFraction h]
  rcases finite_cases h with ⟨hx, hzero⟩ | ⟨m, e, hc, hx, n, hbits, hn⟩
  · have htext : magnitudeText x = ['0'] := by
      simp only [magnitudeText]
      rw [if_pos hzero]
    have hread : ∀ negative : Bool,
        readPlain? (signText negative ++ (['0'] ++ '.' :: ['0'])) =
          some (double (.zero (signOf negative))) := by
      decide +kernel
    refine ⟨['0'], ['0'], 0, by rw [htext]; rfl, ⟨by simp, by simp, by simp, ?_⟩, ?_⟩
    · simp [Text.digitsValue]
    · rw [htext]
      exact (hread _).trans (congrArg some hx.symm)
  · have htext : magnitudeText x =
        positional (Magnitude.mk m e n).shortest.1 (Magnitude.mk m e n).shortest.2 := by
      simp only [magnitudeText, hbits]
      rw [if_neg hc.pos.ne']
    obtain ⟨ws, fs, hpointed, hfixed⟩ := exists_fixedPoint (Magnitude.mk m e n).shortest.1
      (Magnitude.mk m e n).shortest.2
    rw [htext, hpointed]
    refine ⟨ws, fs, _, rfl, hfixed, ?_⟩
    rw [hfixed.readPlain hc (near_shortest hc hn), ← hx]

end Decimal

/-! ## Thresholds -/

theorem looksUnsigned_point {ws fs : List Char} (hne : ws ≠ [])
    (h : ∀ c ∈ ws ++ fs, c.isDigit = true) : looksUnsigned (ws ++ '.' :: fs) = true := by
  have hall := fun c hc => Text.isDecimalDigit_of_isDigit c (h c hc)
  obtain ⟨hws, hfs⟩ := List.forall_mem_append.1 hall
  have hpoint : Text.isDecimalDigit '.' = false := by decide
  obtain ⟨htake, hdrop⟩ := Text.run_append (r := '.' :: fs) hws (by simp [hpoint])
  simp only [looksUnsigned, htake, hdrop]
  simpa [hne] using hfs

theorem looksNumeric_of_toList {w : String} {ws fs : List Char} {negative : Bool} (hne : ws ≠ [])
    (hw : w.toList = Decimal.signText negative ++ (ws ++ '.' :: fs))
    (h : ∀ c ∈ ws ++ fs, c.isDigit = true) : looksNumeric w = true := by
  have hunsigned := looksUnsigned_point hne h
  obtain ⟨c, cs, rfl⟩ := List.exists_cons_of_ne_nil hne
  have hc : c.isDigit = true := h c (by simp)
  cases negative with
  | true =>
    rw [looksNumeric, hw]
    exact hunsigned
  | false =>
    have hw : w.toList = c :: (cs ++ '.' :: fs) := hw
    rw [looksNumeric, hw]
    split
    · next heq => cases heq; cases hc
    · next heq => cases heq; cases hc
    · exact hunsigned

/-- The text of a finite double is a threshold that is read as the double. -/
theorem isThreshold_textWithFraction {x : Float} (h : x.isFinite = true) :
    IsThreshold (Decimal.textWithFraction x) x := by
  obtain ⟨ws, fs, v, htext, hfixed, hread⟩ := Decimal.exists_digits h
  exact ⟨looksNumeric_of_toList hfixed.whole htext hfixed.digits, hread, h⟩

theorem isName_textWithFraction {x : Float} (h : x.isFinite = true) :
    IsName (Decimal.textWithFraction x) := by
  obtain ⟨ws, fs, v, htext, hfixed, -⟩ := Decimal.exists_digits h
  refine ⟨by simp [htext], fun c hc => ?_⟩
  obtain ⟨hws, hfs⟩ := List.forall_mem_append.1 hfixed.digits
  rw [htext, List.mem_append, List.mem_append, List.mem_cons] at hc
  rcases hc with hc | hc | rfl | hc
  · cases hs : Decimal.isNegative x <;> simp [hs, Decimal.signText] at hc
    subst hc
    decide
  · exact isWordChar_of_isDigit (hws c hc)
  · decide
  · exact isWordChar_of_isDigit (hfs c hc)

end MetricAlarm
