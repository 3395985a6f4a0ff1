import Mathlib.Algebra.Order.Field.Power
import Mathlib.Algebra.Order.Field.Rat
import Mathlib.Data.Nat.Log
import Mathlib.Tactic.FieldSimp
import Mathlib.Tactic.Linarith
import Mathlib.Tactic.NormNum
import Mathlib.Tactic.Positivity
import Mathlib.Tactic.Ring

/-!
# Rounding to doubles

A positive double is a significand and an exponent of two (`Canonical`); the rationals that round to
it form an interval (`Near`). Main statement: `roundWithAccuracy_eq`, rounding a rational of the
interval, of which the leading bits and the kind of the remainder are known, gives the double.
-/

namespace MetricAlarm.Decimal

open Float.Model Float.Model.UnpackedFloat

/-! ## The bits behind the last one kept -/

/-- The mantissa with its round bit. -/
def kept (em : ExtendedMantissa) : ℚ := em.mantissa + if em.roundBit then 1 / 2 else 0

/-- What is kept is the number up to less than a half, and the sticky bit says whether it is all. -/
structure Represents (em : ExtendedMantissa) (x : ℚ) : Prop where
  lower : kept em ≤ x
  upper : x < kept em + 1 / 2
  sticky : if em.stickyBit then kept em < x else x = kept em

theorem represents_exact (n : ℕ) :
    Represents (ExtendedMantissa.ofMantissaAndAccuracy n .exact) n := by
  constructor <;> simp [ExtendedMantissa.ofMantissaAndAccuracy, kept]

theorem represents_fraction (n : ℕ) {num den : ℕ} (h : num < den) :
    Represents (ExtendedMantissa.ofMantissaAndAccuracy n (accuracyOfFraction num den))
      (n + num / den) := by
  have hden : (0 : ℚ) < den := by exact_mod_cast Nat.zero_lt_of_lt h
  have hlt : (num : ℚ) / den < 1 := (div_lt_one hden).2 (by exact_mod_cast h)
  unfold accuracyOfFraction
  split
  · next hzero =>
    subst hzero
    simpa using represents_exact n
  · next hne =>
    have hpos : (0 : ℚ) < num / den :=
      div_pos (by exact_mod_cast Nat.pos_of_ne_zero hne) hden
    cases hc : compare (2 * num) den with
    | lt =>
      have hnat : num * 2 < 1 * den := by have := Nat.compare_eq_lt.1 hc; omega
      have hlow : (num : ℚ) / den < 1 / 2 := by
        rw [div_lt_div_iff₀ hden (by norm_num)]
        exact_mod_cast hnat
      constructor <;> simp [ExtendedMantissa.ofMantissaAndAccuracy, kept] <;> linarith
    | eq =>
      have hnat : num * 2 = 1 * den := by have := Nat.compare_eq_eq.1 hc; omega
      have hmid : (num : ℚ) / den = 1 / 2 := by
        rw [div_eq_div_iff hden.ne' (by norm_num)]
        exact_mod_cast hnat
      constructor <;> simp [ExtendedMantissa.ofMantissaAndAccuracy, kept, hmid]
    | gt =>
      have hnat : 1 * den < num * 2 := by have := Nat.compare_eq_gt.1 hc; omega
      have hhigh : 1 / 2 < (num : ℚ) / den := by
        rw [div_lt_div_iff₀ (by norm_num) hden]
        exact_mod_cast hnat
      constructor <;> simp [ExtendedMantissa.ofMantissaAndAccuracy, kept] <;> linarith

theorem kept_shiftRightOne (em : ExtendedMantissa) :
    kept em.shiftRightOne = em.mantissa / 2 := by
  have hn : (em.mantissa : ℚ) = 2 * (em.mantissa / 2 : ℕ) + (em.mantissa % 2 : ℕ) := by
    exact_mod_cast (Nat.div_add_mod em.mantissa 2).symm
  rcases Nat.mod_two_eq_zero_or_one em.mantissa with hr | hr <;> rw [hr] at hn <;>
    simp [kept, ExtendedMantissa.shiftRightOne, hr] <;> push_cast at hn <;> linarith

theorem Represents.shiftRightOne {em : ExtendedMantissa} {x : ℚ} (h : Represents em x) :
    Represents em.shiftRightOne (x / 2) := by
  obtain ⟨n, r, s⟩ := em
  obtain ⟨hlow, hup, hs⟩ := h
  have hkept := kept_shiftRightOne ⟨n, r, s⟩
  have hn : kept ⟨n, r, s⟩ = n + if r then 1 / 2 else 0 := rfl
  have hsticky : (ExtendedMantissa.shiftRightOne ⟨n, r, s⟩).stickyBit = (r || s) := rfl
  cases r <;> cases s <;> simp at hn hs hsticky <;>
    exact ⟨by linarith, by linarith, by simp [hsticky]; linarith⟩

theorem Represents.shiftRight {em : ExtendedMantissa} {x : ℚ} (h : Represents em x) (n : ℕ) :
    Represents (em >>> n) (x / 2 ^ n) := by
  show Represents (n.repeat ExtendedMantissa.shiftRightOne em) (x / 2 ^ n)
  induction n with
  | zero => simpa [Nat.repeat] using h
  | succ n ih =>
    rw [Nat.repeat, pow_succ, ← div_div]
    exact ih.shiftRightOne

/-- The number rounds to `n`, a tie going to the even neighbour. -/
structure RoundsTo (x : ℚ) (n : ℕ) : Prop where
  lower : (n : ℚ) - 1 / 2 ≤ x
  upper : x ≤ n + 1 / 2
  odd : n % 2 = 1 → (n : ℚ) - 1 / 2 < x ∧ x < n + 1 / 2

section
variable {m n : ℕ} {s : Bool} {x : ℚ}

/-- Less than a half is left, so the nearest number is below. -/
theorem Represents.eq_of_low (h : Represents ⟨m, false, s⟩ x) (hn : RoundsTo x n) : m = n := by
  have hm : kept ⟨m, false, s⟩ = m := by simp [kept]
  obtain ⟨hlow, hup, hs⟩ := h
  rw [hm] at hlow hup hs
  have h₁ : (n : ℚ) < m + 1 := by linarith [hn.lower]
  have h₂ : (m : ℚ) < n + 1 := by linarith [hn.upper]
  have h₁ : n < m + 1 := by exact_mod_cast h₁
  have h₂ : m < n + 1 := by exact_mod_cast h₂
  omega

/-- A half is left: the even one of the neighbours. -/
theorem Represents.eq_of_tie (h : Represents ⟨m, true, false⟩ x) (hn : RoundsTo x n) :
    m + m % 2 = n := by
  have hm : kept ⟨m, true, false⟩ = m + 1 / 2 := by simp [kept]
  have hx : x = m + 1 / 2 := hm ▸ h.sticky
  obtain ⟨hlow, hup, hodd⟩ := hn
  rw [hx] at hlow hup hodd
  have h₁ : (m : ℚ) ≤ n := by linarith
  have h₂ : (n : ℚ) ≤ m + 1 := by linarith
  have h₁ : m ≤ n := by exact_mod_cast h₁
  have h₂ : n ≤ m + 1 := by exact_mod_cast h₂
  rcases Nat.mod_two_eq_zero_or_one n with heven | hne
  · omega
  · obtain ⟨hl, hu⟩ := hodd hne
    have h₃ : (n : ℚ) < m + 1 := by linarith
    have h₄ : (m : ℚ) < n := by linarith
    have h₃ : n < m + 1 := by exact_mod_cast h₃
    have h₄ : m < n := by exact_mod_cast h₄
    omega

/-- More than a half is left, so the nearest number is above. -/
theorem Represents.eq_of_high (h : Represents ⟨m, true, true⟩ x) (hn : RoundsTo x n) :
    m + 1 = n := by
  have hm : kept ⟨m, true, true⟩ = m + 1 / 2 := by simp [kept]
  have hlow : kept ⟨m, true, true⟩ < x := h.sticky
  have hup := h.upper
  rw [hm] at hlow hup
  have h₁ : (m : ℚ) < n := by linarith [hn.upper]
  have h₂ : (n : ℚ) < m + 2 := by linarith [hn.lower]
  have h₁ : m < n := by exact_mod_cast h₁
  have h₂ : n < m + 2 := by exact_mod_cast h₂
  omega

end

theorem Represents.roundedMantissa {em : ExtendedMantissa} {x : ℚ} (h : Represents em x) {n : ℕ}
    (hn : RoundsTo x n) : em.roundedMantissa = n := by
  obtain ⟨m, r, s⟩ := em
  cases r with
  | false => cases s <;> exact h.eq_of_low hn
  | true =>
    cases s with
    | false => exact h.eq_of_tie hn
    | true => exact h.eq_of_high hn

/-! ## Doubles and their intervals -/

/-- The significands and exponents of positive doubles. -/
structure Canonical (m : ℕ) (e : ℤ) : Prop where
  pos : 0 < m
  lt : m < 2 ^ 53
  low : -1074 ≤ e
  high : e ≤ 971
  normal : 2 ^ 52 ≤ m ∨ e = -1074

/-- The next double below `m * 2 ^ e` is only half as far away as the next above. -/
def IsNarrow (m : ℕ) (e : ℤ) : Prop := m = 2 ^ 52 ∧ -1074 < e

/-- The numbers that round to `m * 2 ^ e`. -/
structure Near (m : ℕ) (e : ℤ) (x : ℚ) : Prop where
  lower : ((m : ℚ) - 1 / 2) * 2 ^ e ≤ x
  upper : x ≤ ((m : ℚ) + 1 / 2) * 2 ^ e
  odd : m % 2 = 1 → ((m : ℚ) - 1 / 2) * 2 ^ e < x ∧ x < ((m : ℚ) + 1 / 2) * 2 ^ e
  narrow : IsNarrow m e → ((m : ℚ) - 1 / 4) * 2 ^ e ≤ x

theorem near_self (m : ℕ) (e : ℤ) : Near m e (m * 2 ^ e) := by
  have hpos : (0 : ℚ) < 2 ^ e := by positivity
  constructor <;> intros <;> (try constructor) <;> nlinarith

theorem Near.roundsTo {m : ℕ} {e : ℤ} {x : ℚ} (h : Near m e x) : RoundsTo (x / 2 ^ e) m := by
  have hpos : (0 : ℚ) < 2 ^ e := by positivity
  refine ⟨(le_div_iff₀ hpos).2 h.lower, (div_le_iff₀ hpos).2 h.upper, fun hodd => ?_⟩
  exact ⟨(lt_div_iff₀ hpos).2 (h.odd hodd).1, (div_lt_iff₀ hpos).2 (h.odd hodd).2⟩

/-! ## The exponent that rounding aims at -/

/-- The exponent that leaves fifty-three bits of a mantissa, or the least one. -/
def target (n : ℕ) (e : ℤ) : ℤ := Format.binary64.targetExponent (totalExponent n e)

theorem target_eq (n : ℕ) (e : ℤ) : target n e = max (n.log2 + 1 + e - 53) (-1074) := rfl

theorem log2_add_lt {n : ℕ} {e k : ℤ} {x : ℚ} (hn : n ≠ 0) (hlow : n * 2 ^ e ≤ x)
    (hx : x < 2 ^ k) : n.log2 + e < k := by
  have hlog : (2 : ℚ) ^ (n.log2 : ℤ) ≤ n := by
    rw [zpow_natCast]
    exact_mod_cast Nat.log2_self_le hn
  have hpow : (2 : ℚ) ^ ((n.log2 : ℤ) + e) < 2 ^ k := by
    rw [zpow_add₀ two_ne_zero]
    exact lt_of_le_of_lt (mul_le_mul_of_nonneg_right hlog (by positivity)) (hlow.trans_lt hx)
  exact (zpow_lt_zpow_iff_right₀ one_lt_two).1 hpow

theorem lt_log2_add {n : ℕ} {e k : ℤ} {x : ℚ} (hup : x < (n + 1) * 2 ^ e) (hx : 2 ^ k ≤ x) :
    k < n.log2 + 1 + e := by
  have hlog : (n : ℚ) + 1 ≤ 2 ^ ((n.log2 : ℤ) + 1) := by
    have : n + 1 ≤ 2 ^ (n.log2 + 1) := Nat.lt_log2_self
    exact_mod_cast this
  have hpow : (2 : ℚ) ^ k < 2 ^ ((n.log2 : ℤ) + 1 + e) := by
    rw [zpow_add₀ two_ne_zero]
    exact lt_of_lt_of_le (hx.trans_lt hup) (mul_le_mul_of_nonneg_right hlog (by positivity))
  exact (zpow_lt_zpow_iff_right₀ one_lt_two).1 hpow

theorem two_zpow_add (k : ℕ) (e : ℤ) : (2 : ℚ) ^ ((k : ℤ) + e) = 2 ^ k * 2 ^ e := by
  rw [zpow_add₀ two_ne_zero, zpow_natCast]

/-- The exponent of a number with its leading bit at `k`. -/
theorem target_of_bounds {n : ℕ} {e' k : ℤ} {x : ℚ} (hlow : n * 2 ^ e' ≤ x)
    (hup : x < (n + 1) * 2 ^ e') (he' : e' ≤ target n e') (hk : -1022 ≤ k) (hx : 2 ^ k ≤ x)
    (hx' : x < 2 ^ (k + 1)) : target n e' = k - 52 := by
  have hlog := lt_log2_add hup hx
  rw [target_eq] at he' ⊢
  have hn : n ≠ 0 := by
    rintro rfl
    rw [Nat.log2_zero] at hlog he'
    omega
  have := log2_add_lt hn hlow hx'
  omega

/-- Small numbers have the least exponent. -/
theorem target_of_small {n : ℕ} {e' : ℤ} {x : ℚ} (hlow : n * 2 ^ e' ≤ x)
    (he' : e' ≤ target n e') (hx : x < 2 ^ (-1022 : ℤ)) : target n e' = -1074 := by
  rw [target_eq] at he' ⊢
  rcases Nat.eq_zero_or_pos n with rfl | hn
  · rw [Nat.log2_zero] at he' ⊢
    omega
  · have := log2_add_lt hn.ne' hlow hx
    omega

/-- Rounding aims at the exponent of the double, or, where the numbers that round to it lie below
it and have one bit less, at the exponent before. -/
theorem target_of_near {m : ℕ} {e : ℤ} {x : ℚ} (hc : Canonical m e) (hx : Near m e x) {n : ℕ}
    {e' : ℤ} (hlow : n * 2 ^ e' ≤ x) (hup : x < (n + 1) * 2 ^ e') (he' : e' ≤ target n e') :
    target n e' = e ∨ target n e' = e - 1 ∧ IsNarrow m e ∧ x < 2 ^ 52 * 2 ^ e := by
  have hpos : (0 : ℚ) < 2 ^ e := by positivity
  have hlo := hc.low
  rcases le_or_gt ((2 : ℚ) ^ 52 * 2 ^ e) x with hbig | hsmall
  · have hm : (m : ℚ) + 1 ≤ 2 ^ 53 := by exact_mod_cast hc.lt
    have htop : x < 2 ^ 53 * 2 ^ e := by
      calc x ≤ (m + 1 / 2) * 2 ^ e := hx.upper
        _ < 2 ^ 53 * 2 ^ e := mul_lt_mul_of_pos_right (by linarith) hpos
    left
    rw [← two_zpow_add] at hbig htop
    have htop : x < 2 ^ ((52 : ℕ) + e + 1) := htop.trans_eq (by congr 1; omega)
    have := target_of_bounds hlow hup he' (by omega) hbig htop
    omega
  · rcases eq_or_ne e (-1074) with rfl | hmin
    · left
      rw [← two_zpow_add] at hsmall
      exact target_of_small hlow he' hsmall
    · -- The leading bit of the significand is its only one, and the number has the next lower bit.
      right
      have hm : m = 2 ^ 52 := by
        have hnormal := hc.normal.resolve_right hmin
        have hlt : (m : ℚ) - 1 / 2 < 2 ^ 52 :=
          lt_of_mul_lt_mul_right (hx.lower.trans_lt hsmall) hpos.le
        have hlt : (m : ℚ) < 2 ^ 52 + 1 := by linarith
        have hlt : m < 2 ^ 52 + 1 := by exact_mod_cast hlt
        omega
      have hlow51 : (2 : ℚ) ^ 51 * 2 ^ e ≤ x := by
        refine le_trans (mul_le_mul_of_nonneg_right ?_ hpos.le) hx.lower
        rw [hm]
        norm_num
      refine ⟨?_, ⟨hm, by omega⟩, hsmall⟩
      rw [← two_zpow_add] at hlow51 hsmall
      have htop : x < 2 ^ ((51 : ℕ) + e + 1) := hsmall.trans_eq (by congr 1; omega)
      have := target_of_bounds hlow hup he' (by omega) hlow51 htop
      omega

theorem Near.roundsTo_below {e : ℤ} {x : ℚ} (h : Near (2 ^ 52) e x) (he : -1074 < e)
    (hx : x < 2 ^ 52 * 2 ^ e) : RoundsTo (x / 2 ^ (e - 1)) (2 ^ 53) := by
  have hpos : (0 : ℚ) < 2 ^ (e - 1) := by positivity
  have htwo : (2 : ℚ) ^ e = 2 * 2 ^ (e - 1) := by
    rw [← zpow_one_add₀ two_ne_zero]
    congr 1
    omega
  have hnarrow := h.narrow ⟨rfl, he⟩
  rw [htwo] at hnarrow hx
  push_cast at hnarrow
  refine ⟨?_, ?_, fun hodd => absurd hodd (by decide)⟩
  · rw [le_div_iff₀ hpos]
    push_cast
    linarith
  · rw [div_le_iff₀ hpos]
    push_cast
    linarith

/-! ## Rounding -/

theorem Represents.bounds {em : ExtendedMantissa} {x : ℚ} (h : Represents em x) :
    (em.mantissa : ℚ) ≤ x ∧ x < em.mantissa + 1 := by
  obtain ⟨n, r, s⟩ := em
  have hkept : kept ⟨n, r, s⟩ = n + if r then 1 / 2 else 0 := rfl
  have hlow := h.lower
  have hup := h.upper
  cases r <;> simp only [Bool.false_eq_true, if_false, if_true] at hkept <;>
    exact ⟨by linarith, by linarith⟩

theorem mantissa_ofMantissaAndAccuracy (n : ℕ) (acc : Accuracy) :
    (ExtendedMantissa.ofMantissaAndAccuracy n acc).mantissa = n := by
  unfold ExtendedMantissa.ofMantissaAndAccuracy
  split <;> rfl

/-- Shifting to a higher exponent and rounding there. -/
theorem roundedMantissa_shift {n : ℕ} {e' t : ℤ} {acc : Accuracy} {x : ℚ} {r : ℕ}
    (hrep : Represents (ExtendedMantissa.ofMantissaAndAccuracy n acc) (x / 2 ^ e')) (ht : e' ≤ t)
    (hr : RoundsTo (x / 2 ^ t) r) :
    (shiftToExponent n e' acc t).1.roundedMantissa = r ∧ (shiftToExponent n e' acc t).2 = t := by
  obtain ⟨k, rfl⟩ := Int.le.dest ht
  have hk : (e' + (k : ℤ) - e').toNat = k := by omega
  have hshift := hrep.shiftRight k
  rw [div_div, ← zpow_natCast, ← zpow_add₀ two_ne_zero] at hshift
  simp only [shiftToExponent, hk]
  exact ⟨hshift.roundedMantissa hr, trivial⟩

/-- A mantissa of the right size stays as it is. -/
theorem shift_canonical {m : ℕ} {e : ℤ} (hc : Canonical m e) :
    (shiftToTargetExponent .binary64 m e .exact).1.mantissa = m ∧
      (shiftToTargetExponent .binary64 m e .exact).2 = e := by
  have hlog : m.log2 < 53 := (Nat.log2_lt hc.pos.ne').2 hc.lt
  have ht : (target m e - e).toNat = 0 := by
    rw [target_eq]
    have := hc.low
    omega
  show (ExtendedMantissa.ofMantissaAndAccuracy m .exact >>> (target m e - e).toNat).mantissa = m ∧
    e + ((target m e - e).toNat : ℤ) = e
  rw [ht]
  exact ⟨rfl, by simp⟩

/-- One bit too many is shifted away. -/
theorem shift_overflow {e : ℤ} (he : -1074 < e) :
    (shiftToTargetExponent .binary64 (2 ^ 53) (e - 1) .exact).1.mantissa = 2 ^ 52 ∧
      (shiftToTargetExponent .binary64 (2 ^ 53) (e - 1) .exact).2 = e := by
  have ht : (target (2 ^ 53) (e - 1) - (e - 1)).toNat = 1 := by
    rw [target_eq, Nat.log2_two_pow]
    omega
  show (ExtendedMantissa.ofMantissaAndAccuracy (2 ^ 53) .exact >>>
      (target (2 ^ 53) (e - 1) - (e - 1)).toNat).mantissa = 2 ^ 52 ∧
    e - 1 + ((target (2 ^ 53) (e - 1) - (e - 1)).toNat : ℤ) = e
  rw [ht]
  exact ⟨rfl, by omega⟩

/-- A number near a double is rounded to it. -/
theorem roundWithAccuracy_eq {m : ℕ} {e : ℤ} {x : ℚ} (hc : Canonical m e) (hx : Near m e x)
    {n : ℕ} {e' : ℤ} {acc : Accuracy}
    (hrep : Represents (ExtendedMantissa.ofMantissaAndAccuracy n acc) (x / 2 ^ e'))
    (he' : e' ≤ target n e') (s : Sign) :
    roundWithAccuracy .binary64 s n e' acc = .finite s m e hc.pos := by
  have hpos : (0 : ℚ) < 2 ^ e' := by positivity
  obtain ⟨hlow, hup⟩ := hrep.bounds
  rw [mantissa_ofMantissaAndAccuracy] at hlow hup
  rw [le_div_iff₀ hpos] at hlow
  rw [div_lt_iff₀ hpos] at hup
  have hfinal : ∀ {r : ℕ} {t : ℤ},
      (shiftToTargetExponent .binary64 n e' acc).1.roundedMantissa = r →
      (shiftToTargetExponent .binary64 n e' acc).2 = t →
      (shiftToTargetExponent .binary64 r t .exact).1.mantissa = m →
      (shiftToTargetExponent .binary64 r t .exact).2 = e →
      roundWithAccuracy .binary64 s n e' acc = .finite s m e hc.pos := by
    rintro r t rfl rfl rfl rfl
    exact dif_neg hc.pos.ne'
  rcases target_of_near hc hx hlow hup he' with ht | ⟨ht, hnarrow, hbelow⟩
  · obtain ⟨hr, hexp⟩ := roundedMantissa_shift hrep (ht ▸ he') hx.roundsTo
    rw [← ht] at hr hexp
    obtain ⟨hmant, hexp'⟩ := shift_canonical hc
    exact hfinal hr (hexp.trans ht) hmant hexp'
  · obtain ⟨rfl, he⟩ := hnarrow
    obtain ⟨hr, hexp⟩ := roundedMantissa_shift hrep (ht ▸ he') (hx.roundsTo_below he hbelow)
    rw [← ht] at hr hexp
    obtain ⟨hmant, hexp'⟩ := shift_overflow he
    exact hfinal hr (hexp.trans ht) hmant hexp'

/-! ## Quotients -/

theorem log2_add_le_shiftLeft {a : ℕ} (ha : 0 < a) (k : ℕ) : a.log2 + k ≤ (a <<< k).log2 := by
  have hpos : a <<< k ≠ 0 := by
    rw [Nat.shiftLeft_eq]
    exact (Nat.mul_pos ha (Nat.two_pow_pos k)).ne'
  rw [Nat.le_log2 hpos, Nat.shiftLeft_eq, pow_add]
  exact Nat.mul_le_mul_right _ (Nat.log2_self_le ha.ne')

theorem log2_le_of_div {a b : ℕ} (hb : 0 < b) : a.log2 ≤ (a / b).log2 + b.log2 + 1 := by
  rcases Nat.eq_zero_or_pos a with rfl | ha
  · simp
  · have hq : a / b + 1 ≤ 2 ^ ((a / b).log2 + 1) := Nat.lt_log2_self
    have hlog : b < 2 ^ (b.log2 + 1) := Nat.lt_log2_self
    have hlt : a < 2 ^ ((a / b).log2 + b.log2 + 2) := by
      calc a < b * (a / b + 1) := Nat.lt_mul_div_succ a hb
        _ ≤ 2 ^ (b.log2 + 1) * 2 ^ ((a / b).log2 + 1) := Nat.mul_le_mul hlog.le hq
        _ = 2 ^ ((a / b).log2 + b.log2 + 2) := by rw [← pow_add]; congr 1; omega
    have := (Nat.log2_lt ha.ne').2 hlt
    omega

/-- A quotient in units of `2 ^ t`: the numerator is shifted by `k` places before it is divided. -/
theorem quotient_split (m₁ : ℕ) {m₂ k : ℕ} {e₁ e₂ t : ℤ} (h₂ : 0 < m₂)
    (hk : (k : ℤ) = e₁ - e₂ - t) : (m₁ : ℚ) * 2 ^ e₁ / (m₂ * 2 ^ e₂) / 2 ^ t =
      (m₁ <<< k / m₂ : ℕ) + (m₁ <<< k % m₂ : ℕ) / m₂ := by
  have hden : (m₂ : ℚ) ≠ 0 := by exact_mod_cast h₂.ne'
  have hpow : (2 : ℚ) ^ e₁ = 2 ^ k * (2 ^ e₂ * 2 ^ t) := by
    rw [← zpow_natCast, hk, ← zpow_add₀ two_ne_zero, ← zpow_add₀ two_ne_zero]
    congr 1
    omega
  have hsplit : (m₁ : ℚ) * 2 ^ k = m₂ * (m₁ <<< k / m₂ : ℕ) + (m₁ <<< k % m₂ : ℕ) := by
    have := Nat.div_add_mod (m₁ <<< k) m₂
    rw [Nat.shiftLeft_eq] at this ⊢
    exact_mod_cast this.symm
  have htwo : (2 : ℚ) ^ e₂ ≠ 0 := by positivity
  have htwo' : (2 : ℚ) ^ t ≠ 0 := by positivity
  rw [hpow]
  field_simp
  linarith

/-- A quotient near a double is rounded to it. -/
theorem div_eq {m : ℕ} {e : ℤ} (hc : Canonical m e) {m₁ m₂ : ℕ} {e₁ e₂ : ℤ} (h₁ : 0 < m₁)
    (h₂ : 0 < m₂) (hx : Near m e ((m₁ : ℚ) * 2 ^ e₁ / (m₂ * 2 ^ e₂))) (s₁ s₂ : Sign) :
    UnpackedFloat.div .binary64 (.finite s₁ m₁ e₁ h₁) (.finite s₂ m₂ e₂ h₂) =
      .finite (s₁ / s₂) m e hc.pos := by
  obtain ⟨t, ht⟩ : ∃ t, t = min (e₁ - e₂) (Format.binary64.targetExponent
    (totalExponent m₁ e₁ - totalExponent m₂ e₂)) := ⟨_, rfl⟩
  obtain ⟨k, hk⟩ : ∃ k, k = (e₁ - e₂ - t).toNat := ⟨_, rfl⟩
  have hkt : (k : ℤ) = e₁ - e₂ - t := by omega
  have hdiv : UnpackedFloat.div .binary64 (.finite s₁ m₁ e₁ h₁) (.finite s₂ m₂ e₂ h₂) =
      roundWithAccuracy .binary64 (s₁ / s₂) (m₁ <<< k / m₂) t
        (accuracyOfFraction (m₁ <<< k % m₂) m₂) := by
    rw [hk, ht]
    rfl
  rw [hdiv]
  refine roundWithAccuracy_eq hc hx ?_ ?_ (s₁ / s₂)
  · rw [quotient_split m₁ h₂ hkt]
    exact represents_fraction _ (Nat.mod_lt _ h₂)
  · -- The quotient has fifty-three bits, unless its exponent is the least.
    have hlog := log2_le_of_div h₂ (a := m₁ <<< k)
    have hshift := log2_add_le_shiftLeft h₁ k
    have htarget : Format.binary64.targetExponent (totalExponent m₁ e₁ - totalExponent m₂ e₂) =
        max (m₁.log2 + 1 + e₁ - (m₂.log2 + 1 + e₂) - 53) (-1074) := rfl
    rw [htarget] at ht
    rw [target_eq]
    omega

end MetricAlarm.Decimal
