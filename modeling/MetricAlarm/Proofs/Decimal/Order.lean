import Mathlib.Data.Prod.Lex
import MetricAlarm.Proofs.Decimal.NotANumber

/-!
# The order of the doubles

Numbers are ordered, whereas not-a-number compares with nothing, not even with itself, and the two
zeros compare as equal. `rank` sends the numbers into a linear order, where all this is known. Main
statements: `le_iff`, `lt_iff` and `beq_iff`, with `le_of_le_of_le` and `le_of_not_lt` drawn from them.
-/

namespace MetricAlarm.Decimal

open Float.Model

/-! ## Ranks -/

/-- The rank of a number: by kind and sign, then by exponent, then by mantissa. Both zeros have the
same. -/
def rank : UnpackedFloat → ℤ ×ₗ ℤ ×ₗ ℤ
  | .infinity .negative => toLex (-2, toLex (0, 0))
  | .finite .negative m e _ => toLex (-1, toLex (-e, -m))
  | .finite .positive m e _ => toLex (1, toLex (e, m))
  | .infinity .positive => toLex (2, toLex (0, 0))
  | .zero _ | .notANumber => toLex (0, toLex (0, 0))

theorem compare_natCast (m n : ℕ) : compare (m : ℤ) n = compare m n := by
  simp [Int.compare_eq_ite_lt, Nat.compare_eq_ite_lt]

theorem compare_neg (a b : ℤ) : compare (-a) (-b) = (compare a b).swap := by
  simp only [Int.compare_eq_ite_lt, Int.neg_lt_neg_iff]
  rcases Int.lt_trichotomy a b with h | rfl | h
  · simp [h, Int.le_of_lt h]
  · simp
  · simp [h, Int.not_lt.2 (Int.le_of_lt h)]

/-- Numbers compare by rank. -/
theorem compare_rank {u v : UnpackedFloat} (hu : u.isNaN = false) (hv : v.isNaN = false) :
    u.compare v = some (compare (rank u) (rank v)) := by
  cases u with
  | notANumber => cases hu
  | infinity s =>
    cases v with
    | notANumber => cases hv
    | infinity t => cases s <;> cases t <;> rfl
    | zero t => cases s <;> rfl
    | finite t n k hn => cases s <;> cases t <;> rfl
  | zero s =>
    cases v with
    | notANumber => cases hv
    | infinity t => cases t <;> rfl
    | zero t => rfl
    | finite t n k hn => cases t <;> rfl
  | finite s m e hm =>
    cases v with
    | notANumber => cases hv
    | infinity t => cases s <;> cases t <;> rfl
    | zero t => cases s <;> rfl
    | finite t n k hn =>
      cases s <;> cases t
      · change some ((compare e k).then (compare m n)).swap =
          some ((compare (-e) (-k)).then (compare (-(m : ℤ)) (-n)))
        rw [compare_neg, compare_neg, compare_natCast, Ordering.swap_then]
      · rfl
      · rfl
      · change some ((compare e k).then (compare m n)) =
          some ((compare e k).then (compare (m : ℤ) n))
        rw [compare_natCast]

/-! ## Comparisons -/

/-- The rank of a double. -/
def rankOf (x : Float) : ℤ ×ₗ ℤ ×ₗ ℤ := rank x.toModel.unpack

variable {x y z : Float}

theorem number_of_le (h : x ≤ y) : x.isNaN = false ∧ y.isNaN = false := by
  constructor
  · exact Bool.eq_false_iff.2 fun hx => not_le_of_isNaN (.inl hx) h
  · exact Bool.eq_false_iff.2 fun hy => not_le_of_isNaN (.inr hy) h

theorem compare_rankOf (hx : x.isNaN = false) (hy : y.isNaN = false) :
    x.toModel.unpack.compare y.toModel.unpack = some (compare (rankOf x) (rankOf y)) :=
  compare_rank hx hy

theorem le_iff (hx : x.isNaN = false) (hy : y.isNaN = false) : x ≤ y ↔ rankOf x ≤ rankOf y := by
  have hle : x ≤ y ↔ (x.toModel.unpack.compare y.toModel.unpack).any (·.isLE) = true :=
    decide_eq_true_iff
  rw [hle, compare_rankOf hx hy, Option.any_some, Ordering.isLE_iff_ne_gt, ← ne_eq,
    compare_le_iff_le]

theorem lt_iff (hx : x.isNaN = false) (hy : y.isNaN = false) : x < y ↔ rankOf x < rankOf y := by
  have hlt : x < y ↔ (x.toModel.unpack.compare y.toModel.unpack == some .lt) = true :=
    decide_eq_true_iff
  rw [hlt, compare_rankOf hx hy, beq_iff_eq, Option.some.injEq, compare_lt_iff_lt]

theorem beq_iff (hx : x.isNaN = false) (hy : y.isNaN = false) :
    (x == y) = true ↔ rankOf x = rankOf y := by
  have hbeq : (x == y) = (x.toModel.unpack.compare y.toModel.unpack == some .eq) := rfl
  rw [hbeq, compare_rankOf hx hy, beq_iff_eq, Option.some.injEq, compare_eq_iff_eq]

/-! ## The order of the numbers -/

theorem le_self (hx : x.isNaN = false) : x ≤ x := (le_iff hx hx).2 (le_refl _)

theorem le_of_le_of_le (h : x ≤ y) (h' : y ≤ z) : x ≤ z := by
  obtain ⟨hx, hy⟩ := number_of_le h
  obtain ⟨-, hz⟩ := number_of_le h'
  rw [le_iff hx hy] at h
  rw [le_iff hy hz] at h'
  exact (le_iff hx hz).2 (h.trans h')

theorem le_of_not_lt (hx : x.isNaN = false) (hy : y.isNaN = false) (h : ¬ x < y) : y ≤ x := by
  rw [lt_iff hx hy, not_lt] at h
  exact (le_iff hy hx).2 h

theorem le_of_lt (hx : x.isNaN = false) (hy : y.isNaN = false) (h : x < y) : x ≤ y := by
  rw [lt_iff hx hy] at h
  exact (le_iff hx hy).2 h.le

/-- Numbers that are each at most the other are equal as numbers. -/
theorem beq_of_le_of_le (h : x ≤ y) (h' : y ≤ x) : (x == y) = true := by
  obtain ⟨hx, hy⟩ := number_of_le h
  rw [le_iff hx hy] at h
  rw [le_iff hy hx] at h'
  exact (beq_iff hx hy).2 (le_antisymm h h')

end MetricAlarm.Decimal
