import MetricAlarm.Condition.Comparator
import MetricAlarm.Proofs.Decimal.Reading

/-!
# Not-a-number

A sum of finite numbers may overflow, but stays a number, and so does its quotient by a count. What
is not a number compares with nothing. Main statements: `isNaN_add`, `isNaN_div_ofNat` and
`holds_of_isNaN`.
-/

namespace MetricAlarm.Decimal

open Float.Model Float.Model.UnpackedFloat

/-! ## Rounding and packing -/

theorem isNaN_roundWithAccuracy (s : Sign) (m : ℕ) (e : ℤ) (acc : Accuracy) :
    (roundWithAccuracy .binary64 s m e acc).isNaN = false := by
  simp only [roundWithAccuracy]
  split <;> rfl

theorem isNaN_normalize (m : ℤ) (e : ℤ) (s : Sign) :
    (UnpackedFloat.normalize .binary64 m e s).isNaN = false := by
  unfold UnpackedFloat.normalize
  split
  · exact isNaN_roundWithAccuracy _ _ _ _
  · rfl
  · exact isNaN_roundWithAccuracy _ _ _ _

/-- What is packed with an exponent that is not the greatest is a number. -/
theorem isNaN_unpack_packComponents (s : Sign) {x : BitVec 11} (hx : x ≠ -1#11) (f : BitVec 52) :
    (UnpackedFloat.unpack .binary64 (packComponents .binary64 s x f)).isNaN = false := by
  simp only [UnpackedFloat.unpack, unpackExponent_packComponents]
  rw [if_neg hx]
  split
  · split <;> rfl
  · rfl

/-- Packing may overflow to an infinity, but neither makes nor loses not-a-number. -/
theorem isNaN_double (u : UnpackedFloat) : (double u).isNaN = u.isNaN := by
  change (UnpackedFloat.unpack .binary64 (UnpackedFloat.pack .binary64 u)).isNaN = u.isNaN
  cases u with
  | notANumber => decide
  | infinity s => cases s <;> decide
  | zero s => cases s <;> decide
  | finite s m e hm =>
    simp only [UnpackedFloat.pack]
    split
    · change _ = false
      cases s <;> decide
    · next hsmall =>
      split
      · refine isNaN_unpack_packComponents s ?_ _
        intro hx
        have hx := congrArg BitVec.toNat hx
        rw [BitVec.toNat_ofNat] at hx
        simp at hx hsmall
        omega
      · exact isNaN_unpack_packComponents s (by decide) _

/-! ## Operations -/

/-- A number and a finite number have a number as their sum. -/
theorem isNaN_add {x y : Float} (hx : x.isNaN = false) (hy : y.isFinite = true) :
    (x + y).isNaN = false := by
  have hadd : x + y = double (UnpackedFloat.add .binary64
      (UnpackedFloat.unpack .binary64 (bitsOf x)) (UnpackedFloat.unpack .binary64 (bitsOf y))) := rfl
  have hx : (UnpackedFloat.unpack .binary64 (bitsOf x)).isNaN = false := hx
  have hy : (UnpackedFloat.unpack .binary64 (bitsOf y)).isFinite = true := hy
  rw [hadd, isNaN_double]
  generalize UnpackedFloat.unpack .binary64 (bitsOf x) = u at hx
  generalize UnpackedFloat.unpack .binary64 (bitsOf y) = v at hy
  cases u with
  | notANumber => cases hx
  | infinity s => cases v <;> first | rfl | cases hy
  | zero s =>
    cases v with
    | zero t => cases s <;> cases t <;> rfl
    | _ => first | rfl | cases hy
  | finite s m e hm =>
    cases v with
    | finite t n k hn => exact isNaN_normalize _ _ _
    | _ => first | rfl | cases hy

/-- A number by one that is neither zero nor infinite is a number. -/
theorem isNaN_div {x y : Float} (hx : x.isNaN = false) {s : Sign} {m : ℕ} {e : ℤ} {hm : 0 < m}
    (hy : UnpackedFloat.unpack .binary64 (bitsOf y) = .finite s m e hm) :
    (x / y).isNaN = false := by
  have hdiv : x / y = double (UnpackedFloat.div .binary64
      (UnpackedFloat.unpack .binary64 (bitsOf x)) (UnpackedFloat.unpack .binary64 (bitsOf y))) := rfl
  have hx : (UnpackedFloat.unpack .binary64 (bitsOf x)).isNaN = false := hx
  rw [hdiv, isNaN_double, hy]
  generalize UnpackedFloat.unpack .binary64 (bitsOf x) = u at hx
  cases u with
  | notANumber => cases hx
  | infinity t => rfl
  | zero t => rfl
  | finite t n k hn => exact isNaN_roundWithAccuracy _ _ _ _

/-! ## Counts -/

/-- The table of powers of ten starts with one. -/
theorem power_zero :
    Float.exactlyRepresentablePowersOfTen[0] =
      double (.finite .positive (2 ^ 52) (-52) (by decide)) := by
  decide +kernel

theorem double_mul_one {m : ℕ} {e : ℤ} (hc : Canonical m e) :
    double (.finite .positive m e hc.pos) * Float.exactlyRepresentablePowersOfTen[0] =
      double (.finite .positive m e hc.pos) := by
  have hone : Canonical (2 ^ 52) (-52) := by constructor <;> decide
  have hmul : double (.finite .positive m e hc.pos) *
        double (.finite .positive (2 ^ 52) (-52) hone.pos) =
      double (UnpackedFloat.mul .binary64
        (Float.Model.pack (.finite .positive m e hc.pos)).unpack
        (Float.Model.pack (.finite .positive (2 ^ 52) (-52) hone.pos)).unpack) := rfl
  rw [power_zero, hmul, unpack_pack hc, unpack_pack hone]
  refine congrArg double (roundWithAccuracy_eq hc (near_self _ _) ?_ ?_ _)
  · convert represents_exact _ using 1
    rw [zpow_add₀ two_ne_zero]
    push_cast
    field_simp
    norm_num
  · have hlog : 52 ≤ (m * 2 ^ 52).log2 := by
      rw [Nat.le_log2 (Nat.mul_pos hc.pos (by decide)).ne']
      exact Nat.le_mul_of_pos_left _ hc.pos
    rw [target_eq]
    omega

/-- A count of at most fifty-three bits is exact. -/
theorem ofNat_exact {n : ℕ} (hpos : 0 < n) (hlt : n < 2 ^ 53) :
    ∃ (m : ℕ) (e : ℤ) (hc : Canonical m e),
      Float.ofNat n = double (.finite .positive m e hc.pos) ∧ (m : ℚ) * 2 ^ e = n := by
  obtain ⟨m, e, hc, hn, hvalue⟩ := toFloat_exact hpos hlt
  refine ⟨m, e, hc, ?_, hvalue⟩
  rw [← double_mul_one hc, ← hn]
  change Float.ofScientific n false 0 = _
  rw [Float.ofScientific, dif_pos ⟨hlt, by decide⟩]
  rfl

theorem isNaN_ofNat {n : ℕ} (hpos : 0 < n) (hlt : n < 2 ^ 53) : (Float.ofNat n).isNaN = false := by
  obtain ⟨m, e, hc, hn, -⟩ := ofNat_exact hpos hlt
  rw [hn, isNaN_double]
  rfl

theorem isNaN_div_ofNat {x : Float} (hx : x.isNaN = false) {n : ℕ} (hpos : 0 < n)
    (hlt : n < 2 ^ 53) : (x / Float.ofNat n).isNaN = false := by
  obtain ⟨m, e, hc, hn, -⟩ := ofNat_exact hpos hlt
  rw [hn]
  exact isNaN_div hx (unpack_pack hc .positive)

/-! ## Comparisons -/

/-- Not-a-number is not ordered. -/
theorem compare_of_isNaN {u v : UnpackedFloat} (h : u.isNaN = true ∨ v.isNaN = true) :
    u.compare v = none := by
  cases u with
  | notANumber => rfl
  | _ =>
    cases v with
    | notANumber => rfl
    | _ => rcases h with h | h <;> cases h

theorem not_lt_of_isNaN {x y : Float} (h : x.isNaN = true ∨ y.isNaN = true) : ¬ x < y := by
  have hnone : x.toModel.unpack.compare y.toModel.unpack = none := compare_of_isNaN h
  have hlt : x < y ↔ (x.toModel.unpack.compare y.toModel.unpack == some .lt) = true :=
    decide_eq_true_iff
  rw [hlt, hnone]
  exact Bool.false_ne_true

theorem not_le_of_isNaN {x y : Float} (h : x.isNaN = true ∨ y.isNaN = true) : ¬ x ≤ y := by
  have hnone : x.toModel.unpack.compare y.toModel.unpack = none := compare_of_isNaN h
  have hle : x ≤ y ↔ (x.toModel.unpack.compare y.toModel.unpack).any (·.isLE) = true :=
    decide_eq_true_iff
  rw [hle, hnone]
  exact Bool.false_ne_true

/-- No comparison holds with not-a-number on either side. -/
theorem holds_of_isNaN (c : Comparator) {x y : Float} (h : x.isNaN = true ∨ y.isNaN = true) :
    c.holds x y = false := by
  cases c with
  | lt => exact decide_eq_false (not_lt_of_isNaN h)
  | lte => exact decide_eq_false (not_le_of_isNaN h)
  | gt => exact decide_eq_false (not_lt_of_isNaN h.symm)
  | gte => exact decide_eq_false (not_le_of_isNaN h.symm)

end MetricAlarm.Decimal
