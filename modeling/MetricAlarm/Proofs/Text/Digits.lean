import Mathlib.Algebra.Order.Ring.Nat
import MetricAlarm.Text.DecimalDigit

/-!
# Runs of digits
-/

namespace MetricAlarm.Text

/-- Characters of one kind in front of another character are a run. -/
theorem run_append {p : Char → Bool} {cs r : List Char} (hcs : ∀ c ∈ cs, p c = true)
    (hr : ∀ c ∈ r.head?, p c = false) :
    (cs ++ r).takeWhile p = cs ∧ (cs ++ r).dropWhile p = r := by
  rw [List.takeWhile_append_of_pos hcs, List.dropWhile_append_of_pos hcs]
  cases r with
  | nil => simp
  | cons c r => simp [hr c rfl]

theorem digitsValue_toDigits (n : Nat) : digitsValue (Nat.toDigits 10 n) = n :=
  Nat.ofDigitChars_ten_toDigits

theorem digitsValue_append (as bs : List Char) : digitsValue (as ++ bs) =
    10 ^ bs.length * digitsValue as + digitsValue bs :=
  (Nat.ofDigitChars_append 0).trans Nat.ofDigitChars_eq_ofDigitChars_zero

theorem digitsValue_cons (c : Char) (cs : List Char) : digitsValue (c :: cs) =
    10 ^ cs.length * (c.toNat - 48) + digitsValue cs := by
  have h := digitsValue_append [c] cs
  simpa [digitsValue] using h

theorem digitsValue_zeros (n : Nat) : digitsValue (List.replicate n '0') = 0 :=
  Nat.ofDigitChars_replicate_zero

theorem digitsValue_dropZeros (cs : List Char) :
    digitsValue (cs.dropWhile (· == '0')) = digitsValue cs := by
  induction cs with
  | nil => rfl
  | cons c cs ih =>
    by_cases hc : c = '0'
    · subst hc
      rw [List.dropWhile_cons_of_pos (by decide), ih, digitsValue_cons]
      simp
    · rw [List.dropWhile_cons_of_neg (by simpa using hc)]

theorem isDigit_bounds {c : Char} (h : c.isDigit = true) : 48 ≤ c.toNat ∧ c.toNat ≤ 57 := by
  simpa [Char.isDigit, UInt32.le_iff_toNat_le] using h

theorem digitsValue_lt {cs : List Char} (h : ∀ c ∈ cs, c.isDigit = true) :
    digitsValue cs < 10 ^ cs.length := by
  induction cs with
  | nil => decide
  | cons c cs ih =>
    obtain ⟨hc, hcs⟩ := List.forall_mem_cons.1 h
    have hc9 : c.toNat - 48 ≤ 9 := by have := isDigit_bounds hc; omega
    calc digitsValue (c :: cs) = 10 ^ cs.length * (c.toNat - 48) + digitsValue cs :=
          digitsValue_cons c cs
      _ < 10 ^ cs.length * 9 + 10 ^ cs.length :=
          Nat.add_lt_add_of_le_of_lt (Nat.mul_le_mul_left _ hc9) (ih hcs)
      _ = 10 ^ (c :: cs).length := by rw [List.length_cons, Nat.pow_succ]; omega

/-- A number is not less than the power of ten of its first significant digit. -/
theorem le_digitsValue {cs : List Char} (h : ∀ c ∈ cs, c.isDigit = true)
    (hne : cs.dropWhile (· == '0') ≠ []) :
    10 ^ (cs.dropWhile (· == '0')).length ≤ 10 * digitsValue cs := by
  induction cs with
  | nil => exact absurd rfl hne
  | cons c cs ih =>
    obtain ⟨hc, hcs⟩ := List.forall_mem_cons.1 h
    by_cases hzero : c = '0'
    · subst hzero
      rw [List.dropWhile_cons_of_pos (by decide)] at hne ⊢
      rw [digitsValue_cons]
      simpa using ih hcs hne
    · rw [List.dropWhile_cons_of_neg (by simpa using hzero), digitsValue_cons, List.length_cons,
        Nat.pow_succ]
      have hpos : 1 ≤ c.toNat - 48 := by
        have := isDigit_bounds hc
        have hcode : c.toNat ≠ 48 := fun heq => hzero (Char.toNat_inj.1 heq)
        omega
      have := Nat.mul_le_mul_left (10 ^ cs.length) hpos
      omega

end MetricAlarm.Text
