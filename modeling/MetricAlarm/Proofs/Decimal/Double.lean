import Mathlib
import MetricAlarm.Decimal.Positional
import MetricAlarm.Proofs.Decimal.Rounding

/-!
# The bits of doubles

The fields of the bits of a finite double say its significand and exponent (`Fields`). Main
statements: `unpack_pack`, a canonical significand and exponent are kept by the bits, and
`finite_cases`, every finite double is a zero or has a canonical significand and exponent.
-/

namespace MetricAlarm.Decimal

open Float.Model Float.Model.UnpackedFloat

/-! ## The three fields -/

theorem mantissa_field (b : BitVec Format.binary64.numBits) :
    (unpackMantissa b).toNat = b.toNat % hiddenBit := by
  rw [unpackMantissa_def, BitVec.extractLsb'_toNat, Nat.shiftRight_zero]
  rfl

theorem exponent_field (b : BitVec Format.binary64.numBits) :
    (unpackExponent b).toNat = b.toNat / hiddenBit % 2048 := by
  rw [unpackExponent_def, BitVec.extractLsb'_toNat, Nat.shiftRight_eq_div_pow]
  rfl

theorem sign_field (b : BitVec Format.binary64.numBits) :
    (unpackSign b).toNat = b.toNat / (hiddenBit * 2048) := by
  have hb : b.toNat < 2 ^ 64 := b.isLt
  have hbit : hiddenBit * 2048 = 2 ^ 63 := rfl
  rw [unpackSign_def, BitVec.extractLsb'_toNat, Nat.shiftRight_eq_div_pow, hbit]
  exact Nat.mod_eq_of_lt (show b.toNat / 2 ^ 63 < 2 by omega)

theorem leading_bit (m : BitVec 52) : (1#1 ++ m).toNat = hiddenBit + m.toNat := by
  rw [BitVec.toNat_append, ← Nat.shiftLeft_add_eq_or_of_lt m.isLt]
  rfl

/-! ## Finite doubles -/

/-- The significand and exponent that the fields `x` and `f` of a positive double stand for. -/
inductive Fields (x f : ℕ) : ℕ → ℤ → Prop
  | subnormal (hx : x = 0) (hf : 0 < f) : Fields x f f (-1074)
  | normal (hpos : 0 < x) (hlt : x < 2047) : Fields x f (hiddenBit + f) (x - 1075)

theorem Fields.canonical {x f m : ℕ} {e : ℤ} (h : Fields x f m e) (hf : f < hiddenBit) :
    Canonical m e := by
  have hbit : hiddenBit = 2 ^ 52 := rfl
  cases h <;> constructor <;> omega

theorem Canonical.fields {m : ℕ} {e : ℤ} (hc : Canonical m e) :
    ∃ (x : BitVec 11) (f : BitVec 52), Fields x.toNat f.toNat m e := by
  have hbit : hiddenBit = 2 ^ 52 := rfl
  obtain ⟨hpos, hlt, hlow, hhigh, hnormal⟩ := hc
  by_cases hm : hiddenBit ≤ m
  · obtain ⟨x, hx⟩ := Int.eq_ofNat_of_zero_le (a := e + 1075) (by omega)
    obtain ⟨f, rfl⟩ := Nat.exists_eq_add_of_le hm
    refine ⟨BitVec.ofNat 11 x, BitVec.ofNat 52 f, ?_⟩
    rw [BitVec.toNat_ofNat, BitVec.toNat_ofNat, Nat.mod_eq_of_lt (by omega),
      Nat.mod_eq_of_lt (by omega), show e = (x : ℤ) - 1075 by omega]
    exact .normal (by omega) (by omega)
  · obtain rfl : e = -1074 := hnormal.resolve_left (by omega)
    refine ⟨0, BitVec.ofNat 52 m, ?_⟩
    rw [BitVec.toNat_ofNat, Nat.mod_eq_of_lt (by omega)]
    exact .subnormal rfl hpos

theorem finite_congr {m m' : ℕ} {e e' : ℤ} (s : Sign) (h : 0 < m) (h' : 0 < m') (hm : m = m')
    (he : e = e') : finite s m e h = finite s m' e' h' := by
  subst hm he
  rfl

theorem unpack_fields (s : Sign) {x : BitVec 11} {f : BitVec 52} {m : ℕ} {e : ℤ}
    (h : Fields x.toNat f.toNat m e) (hm : 0 < m) :
    UnpackedFloat.unpack .binary64 (packComponents .binary64 s x f) = .finite s m e hm := by
  simp only [UnpackedFloat.unpack, unpackExponent_packComponents, unpackMantissa_packComponents,
    unpackSign_packComponents, Sign.ofBitVec_toBitVec]
  cases h with
  | subnormal hx hf =>
    obtain rfl : x = 0#11 := BitVec.eq_of_toNat_eq hx
    have hne : f ≠ 0#52 := by
      rintro rfl
      exact absurd hf (by decide)
    rw [if_neg (by decide), if_pos rfl, dif_neg hne]
    rfl
  | normal hpos hlt =>
    have hne : x ≠ 0#11 := by
      rintro rfl
      exact absurd hpos (by decide)
    have hne' : x ≠ -1#11 := by
      rintro rfl
      exact absurd hlt (by decide)
    rw [if_neg hne', if_neg hne]
    exact finite_congr _ _ _ (leading_bit f) rfl

theorem valid_of_fields (s : Sign) {x : BitVec 11} {f : BitVec 52} {m : ℕ} {e : ℤ}
    (h : Fields x.toNat f.toNat m e) :
    Format.binary64.Valid (packComponents .binary64 s x f) := by
  refine ⟨fun hx _ => ?_⟩
  rw [unpackExponent_packComponents] at hx
  subst hx
  cases h with
  | subnormal hx _ => cases hx
  | normal _ hlt => exact absurd hlt (by decide)

/-- A canonical significand and exponent are kept by the bits. -/
theorem unpack_pack {m : ℕ} {e : ℤ} (hc : Canonical m e) (s : Sign) :
    (Float.Model.pack (.finite s m e hc.pos)).unpack = .finite s m e hc.pos := by
  obtain ⟨x, f, h⟩ := hc.fields
  have hunpack := unpack_fields s h hc.pos
  have hpack := pack_unpack_of_valid (valid_of_fields s h)
  rw [hunpack] at hpack
  show UnpackedFloat.unpack .binary64 (UnpackedFloat.pack .binary64 (.finite s m e hc.pos)) = _
  rw [hpack, hunpack]

theorem fields_of_unpack {b : BitVec Format.binary64.numBits} {s : Sign} {m : ℕ} {e : ℤ}
    {hm : 0 < m} (h : UnpackedFloat.unpack .binary64 b = .finite s m e hm) :
    s = Sign.ofBitVec (unpackSign b) ∧
      Fields (unpackExponent b).toNat (unpackMantissa b).toNat m e := by
  have hx : (unpackExponent b).toNat < 2 ^ 11 := (unpackExponent b).isLt
  simp only [UnpackedFloat.unpack] at h
  split at h
  · split at h <;> cases h
  · next hmax =>
    have hmax : (unpackExponent b).toNat ≠ 2047 := fun h => hmax (BitVec.eq_of_toNat_eq h)
    split at h
    · next hzero =>
      split at h
      · cases h
      · next hne =>
        have hpos : (unpackMantissa b).toNat ≠ 0 := fun h => hne (BitVec.eq_of_toNat_eq h)
        cases h
        rw [hzero]
        exact ⟨rfl, .subnormal rfl (by omega)⟩
    · next hne =>
      have hne : (unpackExponent b).toNat ≠ 0 := fun h => hne (BitVec.eq_of_toNat_eq h)
      cases h
      rw [leading_bit]
      exact ⟨rfl, .normal (by omega) (by omega)⟩

theorem significand_of_unpack_zero {b : BitVec Format.binary64.numBits} {s : Sign}
    (h : UnpackedFloat.unpack .binary64 b = .zero s) :
    s = Sign.ofBitVec (unpackSign b) ∧ (Magnitude.ofBits b.toNat).significand = 0 := by
  have hexponent := exponent_field b
  have hmantissa := mantissa_field b
  simp only [UnpackedFloat.unpack] at h
  split at h
  · split at h <;> cases h
  · split at h
    · next hx =>
      split at h
      · next hf =>
        cases h
        rw [hx] at hexponent
        rw [hf] at hmantissa
        have hexponent : b.toNat / hiddenBit % 2048 = 0 := hexponent.symm
        refine ⟨rfl, ?_⟩
        simp only [Magnitude.ofBits]
        rw [if_pos hexponent]
        exact hmantissa.symm
      · cases h
    · cases h

/-! ## Doubles of either sign -/

/-- The double that rounding gives. -/
def double (u : UnpackedFloat) : Float := .ofModel (.pack u)

def bitsOf (x : Float) : BitVec Format.binary64.numBits := x.toModel.toBits.toBitVec

def signOf (negative : Bool) : Sign := if negative then .negative else .positive

theorem sign_eq (x : Float) :
    Sign.ofBitVec (unpackSign (bitsOf x)) = signOf (isNegative x) := by
  have hlt : x.toBits.toNat < 2 ^ 64 := x.toBits.toNat_lt
  have hs : (unpackSign (bitsOf x)).toNat = x.toBits.toNat / 2 ^ 63 := sign_field _
  have htest : isNegative x = decide (x.toBits.toNat / 2 ^ 63 % 2 = 1) :=
    Nat.testBit_eq_decide_div_mod_eq
  have hor : x.toBits.toNat / 2 ^ 63 = 0 ∨ x.toBits.toNat / 2 ^ 63 = 1 := by omega
  rcases hor with h | h <;> rw [h] at hs htest
  · have hs : unpackSign (bitsOf x) = 0#1 := BitVec.eq_of_toNat_eq hs
    rw [hs, htest]
    rfl
  · have hs : unpackSign (bitsOf x) = 1#1 := BitVec.eq_of_toNat_eq hs
    rw [hs, htest]
    rfl

theorem double_unpack (x : Float) : double (UnpackedFloat.unpack .binary64 (bitsOf x)) = x := by
  obtain ⟨⟨b, hv⟩⟩ := x
  simp only [double, Float.Model.pack, bitsOf]
  congr 2
  exact congrArg UInt64.ofBitVec (pack_unpack_of_valid hv)

theorem ofBits_of_fields {b : BitVec Format.binary64.numBits} {m : ℕ} {e : ℤ}
    (h : Fields (unpackExponent b).toNat (unpackMantissa b).toNat m e) :
    ∃ n, Magnitude.ofBits b.toNat = ⟨m, e, n⟩ ∧ (n = true ↔ IsNarrow m e) := by
  have hbit : hiddenBit = 2 ^ 52 := rfl
  have hx := exponent_field b
  have hf := mantissa_field b
  have hlt : b.toNat % hiddenBit < hiddenBit := Nat.mod_lt _ (by decide)
  rw [hx, hf] at h
  cases h with
  | subnormal hzero hpos =>
    refine ⟨false, ?_, ?_⟩
    · simp only [Magnitude.ofBits, hzero, if_true]
    · simp [IsNarrow]
  | normal hpos hlt' =>
    refine ⟨b.toNat % hiddenBit == 0 && decide (1 < b.toNat / hiddenBit % 2048), ?_, ?_⟩
    · simp only [Magnitude.ofBits]
      rw [if_neg hpos.ne']
    · rw [Bool.and_eq_true, beq_iff_eq, decide_eq_true_iff, IsNarrow]
      omega

theorem isNaN_of_isFinite {x : Float} (h : x.isFinite = true) : x.isNaN = false := by
  change (UnpackedFloat.unpack .binary64 (bitsOf x)).isNaN = false
  change (UnpackedFloat.unpack .binary64 (bitsOf x)).isFinite = true at h
  cases hu : UnpackedFloat.unpack .binary64 (bitsOf x) with
  | notANumber => rw [hu] at h; cases h
  | _ => rfl

/-- A finite double is a zero, or has a significand and an exponent; the magnitude of its bits
says which. -/
theorem finite_cases {x : Float} (h : x.isFinite = true) :
    (x = double (.zero (signOf (isNegative x))) ∧
      (Magnitude.ofBits x.toBits.toNat).significand = 0) ∨
    ∃ (m : ℕ) (e : ℤ) (hc : Canonical m e),
      x = double (.finite (signOf (isNegative x)) m e hc.pos) ∧
      ∃ n, Magnitude.ofBits x.toBits.toNat = ⟨m, e, n⟩ ∧ (n = true ↔ IsNarrow m e) := by
  have hx := double_unpack x
  have hsign := sign_eq x
  have hfin : (UnpackedFloat.unpack .binary64 (bitsOf x)).isFinite = true := h
  cases hu : UnpackedFloat.unpack .binary64 (bitsOf x) with
  | notANumber => rw [hu] at hfin; cases hfin
  | infinity s => rw [hu] at hfin; cases hfin
  | zero s =>
    obtain ⟨hs, hzero⟩ := significand_of_unpack_zero hu
    rw [hu, hs, hsign] at hx
    exact Or.inl ⟨hx.symm, hzero⟩
  | finite s m e hm =>
    obtain ⟨hs, hf⟩ := fields_of_unpack hu
    rw [hu, hs, hsign] at hx
    have hc := hf.canonical (unpackMantissa (bitsOf x)).isLt
    exact Or.inr ⟨m, e, hc, hx.symm, ofBits_of_fields hf⟩

end MetricAlarm.Decimal
