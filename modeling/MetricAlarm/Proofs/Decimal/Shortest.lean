import MetricAlarm.Proofs.Decimal.Double

/-!
# The shortest decimal of a double is near it

Main statement: `near_shortest`, the decimal found for a double rounds to it. The search hits at the
latest on the last of its grids, whose step is less than half of the last place of the double.
-/

namespace MetricAlarm.Decimal

/-! ## Scaled intervals -/

theorem zpow_mul_toNat {a : ℚ} (ha : a ≠ 0) (z : ℤ) : a ^ z * a ^ (-z).toNat = a ^ z.toNat := by
  rw [← zpow_natCast, ← zpow_natCast, ← zpow_add₀ ha]
  congr 1
  omega

theorem scaled_le {a b : ℕ} {u v c : ℚ} (hc : 0 < c) (ha : (a : ℚ) = u * c)
    (hb : (b : ℚ) = v * c) : a ≤ b ↔ u ≤ v := by
  rw [← mul_le_mul_iff_left₀ hc, ← ha, ← hb, Nat.cast_le]

theorem scaled_lt {a b : ℕ} {u v c : ℚ} (hc : 0 < c) (ha : (a : ℚ) = u * c)
    (hb : (b : ℚ) = v * c) : a < b ↔ u < v := by
  rw [← not_le, ← not_le, scaled_le hc hb ha]

/-- What the units of the scaled interval are worth. -/
def scale (e p : ℤ) : ℚ := 2 ^ (-(e - 2)).toNat * 10 ^ (-p).toNat

theorem scale_pos (e p : ℤ) : 0 < scale e p := by
  unfold scale
  positivity

theorem unit_eq (e p : ℤ) :
    (2 : ℚ) ^ (e - 2).toNat * 10 ^ (-p).toNat = 2 ^ (e - 2) * scale e p := by
  rw [scale, ← mul_assoc, zpow_mul_toNat two_ne_zero]

theorem step_eq (e p : ℤ) :
    (2 : ℚ) ^ (-(e - 2)).toNat * 10 ^ p.toNat = 10 ^ p * scale e p := by
  rw [scale, ← zpow_mul_toNat (a := 10) (by norm_num) p]
  ring

theorem four_quarters (e : ℤ) : (2 : ℚ) ^ e = 4 * 2 ^ (e - 2) := by
  rw [zpow_sub₀ two_ne_zero]
  norm_num
  ring

section
variable {m k : ℕ} {e p : ℤ} {n : Bool}

theorem value_scaled : (((Magnitude.mk m e n).scaled p).value : ℚ) = m * 2 ^ e * scale e p := by
  have h := unit_eq e p
  rw [four_quarters]
  simp only [Magnitude.scaled, Nat.pow_eq]
  push_cast
  rw [mul_assoc, h]
  ring

theorem above_scaled :
    (((Magnitude.mk m e n).scaled p).above : ℚ) = (m + 1 / 2) * 2 ^ e * scale e p := by
  have h := unit_eq e p
  rw [four_quarters]
  simp only [Magnitude.scaled, Nat.pow_eq]
  push_cast
  rw [h]
  ring

theorem step_scaled : (((Magnitude.mk m e n).scaled p).step : ℚ) = 10 ^ p * scale e p := by
  rw [← step_eq]
  simp only [Magnitude.scaled, Nat.pow_eq]
  push_cast
  rfl

theorem below_scaled (hm : 0 < m) : (((Magnitude.mk m e n).scaled p).below : ℚ) =
    (m - if n then 1 / 4 else 1 / 2) * 2 ^ e * scale e p := by
  have h := unit_eq e p
  rw [four_quarters]
  simp only [Magnitude.scaled, Nat.pow_eq]
  rw [Nat.cast_mul, Nat.cast_sub (by cases n <;> simp <;> omega)]
  push_cast
  rw [h]
  cases n <;> simp <;> ring

theorem point_scaled :
    ((k * ((Magnitude.mk m e n).scaled p).step : ℕ) : ℚ) = k * 10 ^ p * scale e p := by
  rw [Nat.cast_mul, step_scaled, mul_assoc]

theorem holds_iff (hm : 0 < m) :
    (Magnitude.mk m e n).holds ((Magnitude.mk m e n).scaled p) k = true ↔
      if m % 2 = 0 then
        ((m : ℚ) - if n then 1 / 4 else 1 / 2) * 2 ^ e ≤ k * 10 ^ p ∧
          (k : ℚ) * 10 ^ p ≤ (m + 1 / 2) * 2 ^ e
      else
        ((m : ℚ) - if n then 1 / 4 else 1 / 2) * 2 ^ e < k * 10 ^ p ∧
          (k : ℚ) * 10 ^ p < (m + 1 / 2) * 2 ^ e := by
  have hbelow := below_scaled (n := n) (e := e) (p := p) hm
  have habove := above_scaled (m := m) (n := n) (e := e) (p := p)
  have hpoint := point_scaled (m := m) (k := k) (n := n) (e := e) (p := p)
  have hpos := scale_pos e p
  unfold Magnitude.holds
  split <;> rw [Bool.and_eq_true, decide_eq_true_iff, decide_eq_true_iff]
  · rw [scaled_le hpos hbelow hpoint, scaled_le hpos hpoint habove]
  · rw [scaled_lt hpos hbelow hpoint, scaled_lt hpos hpoint habove]

/-- A grid point in the interval rounds to the double. -/
theorem near_of_holds (hm : 0 < m) (hn : n = true ↔ IsNarrow m e)
    (h : (Magnitude.mk m e n).holds ((Magnitude.mk m e n).scaled p) k = true) :
    Near m e (k * 10 ^ p) := by
  have hpos : (0 : ℚ) < 2 ^ e := by positivity
  have hwide : ((m : ℚ) - 1 / 2) * 2 ^ e ≤ (m - if n then 1 / 4 else 1 / 2) * 2 ^ e := by
    gcongr
    split <;> norm_num
  rw [holds_iff hm] at h
  split at h
  · next heven =>
    refine ⟨hwide.trans h.1, h.2, fun hodd => by omega, fun hnarrow => ?_⟩
    simpa [hn.2 hnarrow] using h.1
  · next hodd =>
    refine ⟨(hwide.trans_lt h.1).le, h.2.le, fun _ => ⟨hwide.trans_lt h.1, h.2⟩, fun hnarrow => ?_⟩
    exact absurd (hnarrow.1 ▸ rfl) hodd

/-! ## The search -/

theorem holds_of_onGrid (h : (Magnitude.mk m e n).onGrid p = some k) :
    (Magnitude.mk m e n).holds ((Magnitude.mk m e n).scaled p) k = true := by
  simp only [Magnitude.onGrid] at h
  split at h
  · next hlower hupper =>
    obtain rfl := Option.some.inj h
    split
    · exact hlower
    · exact hupper
  · next hlower _ => exact Option.some.inj h ▸ hlower
  · next _ hupper => exact Option.some.inj h ▸ hupper
  · cases h

end

theorem search_hits {m : Magnitude} {n j : ℕ} {p : ℤ} (hj : j < n)
    (h : (m.onGrid (p - j)).isSome = true) :
    m.onGrid (m.search n p).2 = some (m.search n p).1 := by
  induction n generalizing j p with
  | zero => omega
  | succ n ih =>
    rw [Magnitude.search]
    cases hp : m.onGrid p with
    | some k => exact hp
    | none =>
      cases j with
      | zero => simp [hp] at h
      | succ j =>
        refine ih (Nat.lt_of_succ_lt_succ hj) ?_
        rwa [show p - 1 - (j : ℤ) = p - (j + 1 : ℕ) by omega]

theorem onGrid_isSome_of_upper {m : Magnitude} {p : ℤ}
    (h : m.holds (m.scaled p) ((m.scaled p).value / (m.scaled p).step + 1) = true) :
    (m.onGrid p).isSome = true := by
  simp only [Magnitude.onGrid, h]
  split <;> simp_all

/-- A grid finer than half of the last place has a point above the value in the interval. -/
theorem onGrid_isSome {m : ℕ} {e p : ℤ} {n : Bool} (hm : 0 < m) (hp : (10 : ℚ) ^ p < 2 ^ (e - 1)) :
    ((Magnitude.mk m e n).onGrid p).isSome = true := by
  obtain ⟨s, hs⟩ : ∃ s, s = (Magnitude.mk m e n).scaled p := ⟨_, rfl⟩
  obtain ⟨k, hk⟩ : ∃ k, k = s.value / s.step := ⟨_, rfl⟩
  have hpos := scale_pos e p
  have hvalue : (s.value : ℚ) = m * 2 ^ e * scale e p := hs ▸ value_scaled
  have hstep : 0 < s.step := by
    have h : (0 : ℚ) < s.step := by
      rw [hs, step_scaled]
      exact mul_pos (by positivity) hpos
    exact_mod_cast h
  have hlower : (k : ℚ) * 10 ^ p ≤ m * 2 ^ e := by
    rw [← scaled_le hpos (hs ▸ point_scaled) hvalue, hk]
    exact Nat.div_mul_le_self _ _
  have hupper : (m : ℚ) * 2 ^ e < (k + 1 : ℕ) * 10 ^ p := by
    rw [← scaled_lt hpos hvalue (hs ▸ point_scaled), hk, mul_comm]
    exact Nat.lt_mul_div_succ _ hstep
  have htwo : (2 : ℚ) ^ (e - 1) = 1 / 2 * 2 ^ e := by
    rw [zpow_sub_one₀ two_ne_zero]
    ring
  have hover : ((k + 1 : ℕ) : ℚ) * 10 ^ p < (m + 1 / 2) * 2 ^ e := by
    push_cast
    linarith
  have hunder : ((m : ℚ) - if n then 1 / 4 else 1 / 2) * 2 ^ e < (k + 1 : ℕ) * 10 ^ p := by
    refine lt_of_le_of_lt ?_ hupper
    gcongr
    split <;> norm_num
  apply onGrid_isSome_of_upper
  rw [← hs, ← hk, hs, holds_iff hm]
  split
  · exact ⟨hunder.le, hover.le⟩
  · exact ⟨hunder, hover⟩

/-! ## Powers of ten and two -/

theorem ten_zpow_lt_of_nonneg {p b : ℤ} (hp : 0 ≤ p) (h : 10 * p < 3 * b) :
    (10 : ℚ) ^ p < 2 ^ b := by
  obtain ⟨n, rfl⟩ := Int.eq_ofNat_of_zero_le hp
  refine lt_of_pow_lt_pow_left₀ 3 (by positivity) ?_
  calc ((10 : ℚ) ^ (n : ℤ)) ^ 3 = (10 ^ 3) ^ n := by
        rw [zpow_natCast, ← pow_mul, ← pow_mul, mul_comm]
    _ ≤ (2 ^ 10) ^ n := pow_le_pow_left₀ (by norm_num) (by norm_num) n
    _ = 2 ^ (10 * (n : ℤ)) := by rw [← pow_mul, ← zpow_natCast]; norm_cast
    _ < 2 ^ (b * 3) := zpow_lt_zpow_right₀ one_lt_two (by omega)
    _ = (2 ^ b) ^ 3 := by rw [zpow_mul]; norm_cast

theorem ten_zpow_lt_of_nonpos {p b : ℤ} (hp : p ≤ 0) (h : 33 * p < 10 * b) :
    (10 : ℚ) ^ p < 2 ^ b := by
  obtain ⟨n, hn⟩ := Int.eq_ofNat_of_zero_le (Int.neg_nonneg.2 hp)
  obtain rfl : p = -(n : ℤ) := by omega
  refine lt_of_pow_lt_pow_left₀ 10 (by positivity) ?_
  calc ((10 : ℚ) ^ (-(n : ℤ))) ^ 10 = ((10 ^ 10) ^ n)⁻¹ := by
        rw [zpow_neg, zpow_natCast, inv_pow, ← pow_mul, ← pow_mul, mul_comm]
    _ ≤ ((2 ^ 33) ^ n)⁻¹ :=
        inv_anti₀ (by positivity) (pow_le_pow_left₀ (by norm_num) (by norm_num) n)
    _ = 2 ^ (33 * -(n : ℤ)) := by rw [← pow_mul, mul_neg, zpow_neg, ← zpow_natCast]; norm_cast
    _ < 2 ^ (b * 10) := zpow_lt_zpow_right₀ one_lt_two (by omega)
    _ = (2 ^ b) ^ 10 := by rw [zpow_mul]; norm_cast

/-- The last of the grids is finer than half of the last place. -/
theorem last_grid {m : ℕ} {e : ℤ} {n : Bool} (hc : Canonical m e) :
    (10 : ℚ) ^ ((Magnitude.mk m e n).topExponent - (21 : ℕ)) < 2 ^ (e - 1) := by
  have hlog : m.log2 < 53 := (Nat.log2_lt hc.pos.ne').2 hc.lt
  have hlow := hc.low
  have hhigh := hc.high
  have htop : (Magnitude.mk m e n).topExponent = (e + (m.log2 + 1)) * 30103 / 100000 + 1 := rfl
  rw [htop]
  rcases le_total 0 ((e + (m.log2 + 1)) * 30103 / 100000 + 1 - ((21 : ℕ) : ℤ)) with hp | hp
  · exact ten_zpow_lt_of_nonneg hp (by omega)
  · exact ten_zpow_lt_of_nonpos hp (by omega)

/-- The shortest decimal of a double rounds to it. -/
theorem near_shortest {m : ℕ} {e : ℤ} {n : Bool} (hc : Canonical m e)
    (hn : n = true ↔ IsNarrow m e) :
    Near m e ((Magnitude.mk m e n).shortest.1 * 10 ^ (Magnitude.mk m e n).shortest.2) := by
  have hlast := onGrid_isSome (n := n) hc.pos (last_grid (n := n) hc)
  exact near_of_holds hc.pos hn (holds_of_onGrid (search_hits (by decide) hlast))

end MetricAlarm.Decimal
