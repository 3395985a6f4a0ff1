import MetricAlarm.Decimal.Reading
import MetricAlarm.Proofs.Decimal.Double
import MetricAlarm.Proofs.Text.Digits

/-!
# Decimals near a double are read as it

Main statement: `FixedPoint.readPlain`, digits around a point whose value rounds to a double are
read as this double, with the sign in front of them.
-/

namespace MetricAlarm.Decimal

open Float.Model Float.Model.UnpackedFloat

/-! ## Numbers that are doubles -/

theorem round_exact {n k : ℕ} (hpos : 0 < n) (hlt : n < 2 ^ 53) (hk : k ≤ 971) :
    ∃ (m : ℕ) (e : ℤ) (hc : Canonical m e),
      UnpackedFloat.round .binary64 .positive n k = .finite .positive m e hc.pos ∧
        (m : ℚ) * 2 ^ e = n * 2 ^ k := by
  have hlog : n.log2 < 53 := (Nat.log2_lt hpos.ne').2 hlt
  obtain ⟨j, hj⟩ : ∃ j, j = 52 - n.log2 := ⟨_, rfl⟩
  have hround : UnpackedFloat.round .binary64 .positive n k =
      roundWithAccuracy .binary64 .positive (n <<< ((k : ℤ) - target n k).toNat)
        (k - ((k : ℤ) - target n k).toNat) .exact := rfl
  have hshift : ((k : ℤ) - target n k).toNat = j := by
    rw [target_eq]
    omega
  have hlow : 2 ^ 52 ≤ n * 2 ^ j := by
    calc 2 ^ 52 = 2 ^ n.log2 * 2 ^ j := by rw [← pow_add]; congr 1; omega
      _ ≤ n * 2 ^ j := Nat.mul_le_mul_right _ (Nat.log2_self_le hpos.ne')
  have hhigh : n * 2 ^ j < 2 ^ 53 := by
    calc n * 2 ^ j < 2 ^ (n.log2 + 1) * 2 ^ j :=
          Nat.mul_lt_mul_of_pos_right Nat.lt_log2_self (Nat.two_pow_pos j)
      _ = 2 ^ 53 := by rw [← pow_add]; congr 1; omega
  have hc : Canonical (n * 2 ^ j) (k - j) :=
    ⟨by omega, hhigh, by omega, by omega, Or.inl hlow⟩
  have hlog' : (n * 2 ^ j).log2 = 52 := (Nat.log2_eq_iff hc.pos.ne').2 ⟨hlow, hhigh⟩
  refine ⟨n * 2 ^ j, k - j, hc, ?_, ?_⟩
  · rw [hround, hshift, Nat.shiftLeft_eq]
    refine roundWithAccuracy_eq hc (near_self _ _) ?_ ?_ _
    · rw [mul_div_cancel_right₀ _ (zpow_ne_zero _ two_ne_zero)]
      exact represents_exact _
    · rw [target_eq, hlog']
      omega
  · rw [zpow_sub₀ two_ne_zero, zpow_natCast, zpow_natCast]
    push_cast
    field_simp

theorem toFloat_exact {d : ℕ} (hpos : 0 < d) (hlt : d < 2 ^ 53) :
    ∃ (m : ℕ) (e : ℤ) (hc : Canonical m e),
      d.toUInt64.toFloat = double (.finite .positive m e hc.pos) ∧ (m : ℚ) * 2 ^ e = d := by
  obtain ⟨m, e, hc, hround, hvalue⟩ := round_exact hpos hlt (Nat.zero_le 971)
  refine ⟨m, e, hc, ?_, by simpa using hvalue⟩
  have hd : d.toUInt64.toNat = d := by
    rw [Nat.toUInt64_eq, UInt64.toNat_ofNat']
    exact Nat.mod_eq_of_lt (by omega)
  have hgt : compare (d : ℤ) 0 = .gt := by
    rw [compare_gt_iff_gt]
    exact_mod_cast hpos
  have hfloat : d.toUInt64.toFloat =
      double (UnpackedFloat.normalize .binary64 d.toUInt64.toNat 0 .positive) := rfl
  rw [hfloat, hd, ← hround, UnpackedFloat.normalize, hgt]
  rfl

/-- The table of the powers of ten holds them exactly. -/
theorem powers_eq : ∀ n : Fin Float.exactlyRepresentablePowersOfTen.size,
    Float.exactlyRepresentablePowersOfTen[n] =
      double (UnpackedFloat.round .binary64 .positive (5 ^ n.val) n.val) := by
  decide +kernel

/-! ## The bounds of the doubles -/

theorem Near.pos {m : ℕ} {e : ℤ} {x : ℚ} (hc : Canonical m e) (hx : Near m e x) : 0 < x := by
  have hm : (1 : ℚ) ≤ m := by exact_mod_cast hc.pos
  have hpos : (0 : ℚ) < 2 ^ e := by positivity
  refine lt_of_lt_of_le (mul_pos ?_ hpos) hx.lower
  linarith

theorem Near.ge_least {m k : ℕ} {e : ℤ} {x : ℚ} (hc : Canonical m e) (hx : Near m e x)
    (hk : -(k : ℤ) ≤ e) : 1 ≤ x * 2 ^ (k + 1) := by
  have hm : (1 : ℚ) ≤ m := by exact_mod_cast hc.pos
  have hpow : (1 : ℚ) ≤ 2 ^ e * 2 ^ k := by
    rw [← zpow_natCast, ← zpow_add₀ two_ne_zero]
    exact one_le_zpow₀ one_le_two (by omega)
  calc (1 : ℚ) ≤ 2 ^ e * 2 ^ k := hpow
    _ = (1 - 1 / 2) * 2 ^ e * 2 ^ (k + 1) := by ring
    _ ≤ ((m : ℚ) - 1 / 2) * 2 ^ e * 2 ^ (k + 1) := by gcongr
    _ ≤ x * 2 ^ (k + 1) := by gcongr; exact hx.lower

theorem Near.lt_most {m : ℕ} {e : ℤ} {x : ℚ} (hc : Canonical m e) (hx : Near m e x) :
    x < 2 ^ 1024 := by
  have hm : (m : ℚ) + 1 ≤ 2 ^ 53 := by exact_mod_cast hc.lt
  have hpos : (0 : ℚ) < 2 ^ e := by positivity
  have hpow : (2 : ℚ) ^ e ≤ 2 ^ 971 := by
    rw [← zpow_natCast]
    exact zpow_le_zpow_right₀ one_le_two (by exact_mod_cast hc.high)
  calc x ≤ ((m : ℚ) + 1 / 2) * 2 ^ e := hx.upper
    _ < 2 ^ 53 * 2 ^ e := mul_lt_mul_of_pos_right (by linarith) hpos
    _ ≤ 2 ^ 53 * 2 ^ 971 := by gcongr
    _ = 2 ^ 1024 := by rw [← pow_add]

/-! ## Decimals -/

theorem two_pow_le_ten_pow {a b : ℕ} (h : a ≤ 3 * b) : 2 ^ a ≤ 10 ^ b := by
  calc 2 ^ a ≤ 2 ^ (3 * b) := Nat.pow_le_pow_right (by decide) h
    _ = 8 ^ b := pow_mul 2 3 b
    _ ≤ 10 ^ b := Nat.pow_le_pow_left (by decide) b

section
variable {m : ℕ} {e : ℤ} {d n : ℕ}

theorem digits_pos (hc : Canonical m e) (hx : Near m e (d / 10 ^ n)) : 0 < d := by
  have h := hx.pos hc
  rw [div_pos_iff_of_pos_right (by positivity)] at h
  exact_mod_cast h

theorem ten_pow_le (hc : Canonical m e) (hx : Near m e (d / 10 ^ n)) {k : ℕ}
    (hk : -(k : ℤ) ≤ e) : 10 ^ n ≤ d * 2 ^ (k + 1) := by
  have h := hx.ge_least hc hk
  rw [div_mul_eq_mul_div, le_div_iff₀ (by positivity), one_mul] at h
  exact_mod_cast h

theorem lt_two_pow (hc : Canonical m e) (hx : Near m e (d / 10 ^ n)) : d < 2 ^ 1024 * 10 ^ n := by
  have h := hx.lt_most hc
  rw [div_lt_iff₀ (by positivity)] at h
  exact_mod_cast h

theorem places_le (hc : Canonical m e) (hx : Near m e (d / 10 ^ n)) {k : ℕ} (hk : -(k : ℤ) ≤ e) :
    n ≤ d.log2 + 1 + k := by
  have hpow : 2 ^ n < 2 ^ (d.log2 + 1 + (k + 1)) := by
    calc 2 ^ n ≤ 10 ^ n := Nat.pow_le_pow_left (by decide) n
      _ ≤ d * 2 ^ (k + 1) := ten_pow_le hc hx hk
      _ < 2 ^ (d.log2 + 1) * 2 ^ (k + 1) :=
        Nat.mul_lt_mul_of_pos_right Nat.lt_log2_self (Nat.two_pow_pos (k + 1))
      _ = 2 ^ (d.log2 + 1 + (k + 1)) := by rw [← pow_add]
  have := (Nat.pow_lt_pow_iff_right (by decide)).1 hpow
  omega

/-- Small numbers and powers are divided as doubles. -/
theorem quotient_eq (hc : Canonical m e) (hx : Near m e (d / 10 ^ n)) (hd : d < 2 ^ 53)
    (hn : n < Float.exactlyRepresentablePowersOfTen.size) :
    d.toUInt64.toFloat / Float.exactlyRepresentablePowersOfTen[n] =
      double (.finite .positive m e hc.pos) := by
  have hn' : n < 23 := hn
  obtain ⟨m₁, e₁, hc₁, hnum, h₁⟩ := toFloat_exact (digits_pos hc hx) hd
  have hfive : 5 ^ n < 2 ^ 53 := by
    calc 5 ^ n ≤ 5 ^ 22 := Nat.pow_le_pow_right (by decide) (by omega)
      _ < 2 ^ 53 := by norm_num
  obtain ⟨m₂, e₂, hc₂, hden, h₂⟩ := round_exact (Nat.pow_pos (by decide)) hfive
    (show n ≤ 971 by omega)
  have hten : (m₂ : ℚ) * 2 ^ e₂ = 10 ^ n := by
    rw [h₂]
    push_cast
    rw [← mul_pow]
    norm_num
  have hpower := powers_eq ⟨n, hn⟩
  rw [hden] at hpower
  rw [hnum]
  refine (congrArg _ hpower).trans ?_
  have hdiv : double (.finite .positive m₁ e₁ hc₁.pos) / double (.finite .positive m₂ e₂ hc₂.pos) =
      double (UnpackedFloat.div .binary64
        (Float.Model.pack (.finite .positive m₁ e₁ hc₁.pos)).unpack
        (Float.Model.pack (.finite .positive m₂ e₂ hc₂.pos)).unpack) := rfl
  rw [hdiv, unpack_pack hc₁, unpack_pack hc₂]
  exact congrArg double (div_eq hc hc₁.pos hc₂.pos (by rwa [h₁, hten]) _ _)

/-- A decimal near a double is read as it. -/
theorem ofScientific_eq (hc : Canonical m e) (hx : Near m e (d / 10 ^ n)) (hn : 0 < n) :
    Float.ofScientific d true n = double (.finite .positive m e hc.pos) := by
  have hd := digits_pos hc hx
  by_cases hfast : d < 2 ^ 53 ∧ n ≤ 22
  · rw [Float.ofScientific, dif_pos hfast]
    exact quotient_eq hc hx hfast.1 (Nat.lt_succ_of_le hfast.2)
  · have hplaces := places_le hc hx (k := 1074) hc.low
    have hbits : (2 : ℤ) ^ Format.binary64.exponentBits = 2048 := rfl
    have hslow : Float.ofScientific d true n =
        double (UnpackedFloat.ofScientific .binary64 d (Int.negOfNat n)) := by
      rw [Float.ofScientific, dif_neg hfast]
      rfl
    have hneg : Int.negOfNat n = -(n : ℤ) := Int.negOfNat_eq
    have hnat : (-(-(n : ℤ))).toNat = n := by omega
    rw [hslow, hneg, UnpackedFloat.ofScientific, dif_neg hd.ne', hbits, if_neg (by omega),
      if_neg (by omega), if_neg (by omega)]
    simp only [hnat]
    refine congrArg double (div_eq hc hd (Nat.pow_pos (by decide)) ?_ _ _)
    simpa using hx

section
variable {ds : List Char}

/-- A double has at most three hundred and forty-three digits in front of the point. -/
theorem significant_le (hc : Canonical m e) (hds : ∀ c ∈ ds, c.isDigit = true)
    (hx : Near m e (Text.digitsValue ds / 10 ^ n)) (hne : ds.dropWhile (· == '0') ≠ []) :
    (ds.dropWhile (· == '0')).length < 343 + n := by
  have hpow : 10 ^ (ds.dropWhile (· == '0')).length < 10 ^ (1 + 342 + n) := by
    calc 10 ^ (ds.dropWhile (· == '0')).length ≤ 10 * Text.digitsValue ds :=
          Text.le_digitsValue hds hne
      _ < 10 * (2 ^ 1024 * 10 ^ n) := Nat.mul_lt_mul_of_pos_left (lt_two_pow hc hx) (by decide)
      _ ≤ 10 * (10 ^ 342 * 10 ^ n) :=
        Nat.mul_le_mul_left _ (Nat.mul_le_mul_right _ (two_pow_le_ten_pow (by decide)))
      _ = 10 ^ (1 + 342 + n) := by rw [pow_add, pow_add, pow_one, mul_assoc]
  exact (Nat.pow_lt_pow_iff_right (by decide)).1 hpow

/-- Fewer than three hundred and fifty-nine zeros stand between the point and the first digit. -/
theorem places_lt (hc : Canonical m e) (hds : ∀ c ∈ ds, c.isDigit = true)
    (hx : Near m e (Text.digitsValue ds / 10 ^ n)) :
    n < (ds.dropWhile (· == '0')).length + 359 := by
  obtain ⟨k, hk⟩ : ∃ k, k = 1074 := ⟨_, rfl⟩
  have hlow : -(k : ℤ) ≤ e := by have := hc.low; omega
  have hlt : Text.digitsValue ds < 10 ^ (ds.dropWhile (· == '0')).length := by
    rw [← Text.digitsValue_dropZeros]
    exact Text.digitsValue_lt fun c hmem => hds c ((List.dropWhile_suffix _).subset hmem)
  have hpow : 10 ^ n < 10 ^ ((ds.dropWhile (· == '0')).length + 359) := by
    calc 10 ^ n ≤ Text.digitsValue ds * 2 ^ (k + 1) := ten_pow_le hc hx hlow
      _ < 10 ^ (ds.dropWhile (· == '0')).length * 2 ^ (k + 1) :=
        Nat.mul_lt_mul_of_pos_right hlt (Nat.two_pow_pos (k + 1))
      _ ≤ 10 ^ (ds.dropWhile (· == '0')).length * 10 ^ 359 :=
        Nat.mul_le_mul_left _ (two_pow_le_ten_pow (by omega))
      _ = 10 ^ ((ds.dropWhile (· == '0')).length + 359) := by rw [pow_add]
  exact (Nat.pow_lt_pow_iff_right (by decide)).1 hpow

/-- Digits near a double are read as it. -/
theorem toFloat_eq (hc : Canonical m e) (hds : ∀ c ∈ ds, c.isDigit = true)
    (hx : Near m e (Text.digitsValue ds / 10 ^ n)) (hn : 0 < n) :
    (Unsigned.mk ds (-n)).toFloat = double (.finite .positive m e hc.pos) := by
  have hne : ds.dropWhile (· == '0') ≠ [] := by
    intro hnil
    have hpos := digits_pos hc hx
    rw [← Text.digitsValue_dropZeros, hnil] at hpos
    exact absurd hpos (by decide)
  have hhigh := significant_le hc hds hx hne
  have hlow := places_lt hc hds hx
  simp only [Unsigned.toFloat]
  rw [if_neg hne, if_neg (by omega), if_neg (by omega), decide_eq_true (by omega), Int.natAbs_neg,
    Int.natAbs_natCast, Text.digitsValue_dropZeros]
  exact ofScientific_eq hc hx hn

end

end

/-! ## Decimals with a point -/

/-- Digits around a point, of the value `x`. -/
structure FixedPoint (ws fs : List Char) (x : ℚ) : Prop where
  whole : ws ≠ []
  fraction : fs ≠ []
  digits : ∀ c ∈ ws ++ fs, c.isDigit = true
  value : (Text.digitsValue (ws ++ fs) : ℚ) = x * 10 ^ fs.length

section
variable {ws fs : List Char} {x : ℚ}

theorem FixedPoint.mantissa (h : FixedPoint ws fs x) :
    mantissa? (ws ++ '.' :: fs) = some (⟨ws ++ fs, -fs.length⟩, []) := by
  obtain ⟨hws, hfs⟩ := List.forall_mem_append.1 h.digits
  obtain ⟨htake, hdrop⟩ := Text.run_append (r := '.' :: fs) hws (by simp)
  obtain ⟨hfraction, hrest⟩ := Text.run_append (r := []) hfs (by simp)
  rw [List.append_nil] at hfraction hrest
  simp only [mantissa?, htake, hdrop, hfraction, hrest]
  rw [if_neg (fun hnil => h.whole hnil.1)]

theorem FixedPoint.splitSign (h : FixedPoint ws fs x) :
    splitSign (ws ++ '.' :: fs) = (false, ws ++ '.' :: fs) := by
  obtain ⟨c, cs, rfl⟩ := List.exists_cons_of_ne_nil h.whole
  have hc : c.isDigit = true := h.digits c (by simp)
  rw [List.cons_append]
  unfold Decimal.splitSign
  split
  · next heq => cases heq; cases hc
  · next heq => cases heq; cases hc
  · rfl

theorem withSign_double {m : ℕ} {e : ℤ} (hc : Canonical m e) (negative : Bool) :
    withSign negative (double (.finite .positive m e hc.pos)) =
      double (.finite (signOf negative) m e hc.pos) := by
  cases negative with
  | false => rfl
  | true =>
    have hneg : -double (.finite .positive m e hc.pos) =
        double (Float.Model.pack (.finite .positive m e hc.pos)).unpack.neg := rfl
    rw [withSign, if_pos rfl, hneg, unpack_pack hc]
    rfl

def signText (negative : Bool) : List Char := if negative then ['-'] else []

theorem FixedPoint.splitSign_signText (h : FixedPoint ws fs x) (negative : Bool) :
    Decimal.splitSign (signText negative ++ (ws ++ '.' :: fs)) = (negative, ws ++ '.' :: fs) := by
  cases negative with
  | false => exact h.splitSign
  | true => rfl

/-- A decimal that rounds to a double is read as it. -/
theorem FixedPoint.readPlain {m : ℕ} {e : ℤ} (h : FixedPoint ws fs x) (hc : Canonical m e)
    (hx : Near m e x) (negative : Bool) :
    readPlain? (signText negative ++ (ws ++ '.' :: fs)) =
      some (double (.finite (signOf negative) m e hc.pos)) := by
  have hnear : Near m e (Text.digitsValue (ws ++ fs) / 10 ^ fs.length) := by
    rwa [h.value, mul_div_cancel_right₀ _ (by positivity)]
  have hvalue := toFloat_eq hc h.digits hnear (List.length_pos_of_ne_nil h.fraction)
  simp only [readPlain?, h.splitSign_signText, h.mantissa]
  rw [← withSign_double hc, ← hvalue]
  rfl

end

end MetricAlarm.Decimal
