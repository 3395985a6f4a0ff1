import MetricAlarm.Proofs.Accumulator
import MetricAlarm.Proofs.Decimal.Order

/-!
# What the aggregates say of the samples

`aggregate` goes through the samples once and keeps the best one so far. What it ends with is said
here without a walk: a smallest or greatest value is one of the values, and at most or at least every
other; the last value belongs to the first among the samples of the greatest timestamp. Main
statement: `summarizes_aggregate`.
-/

namespace MetricAlarm

theorem isNaN_noValue : noValue.isNaN = true := by decide +kernel

/-! ## The best of some numbers -/

/-- One of the values, which stands in a relation to all of them. -/
structure Best (relates : Float → Float → Prop) (values : List Float) (x : Float) : Prop where
  mem : x ∈ values
  relates : ∀ y ∈ values, relates x y

/-- A preference that is total on numbers, with the order in which the preferred ones come first. -/
structure Prefers (better relates : Float → Float → Prop) : Prop where
  self : ∀ {x}, x.isNaN = false → relates x x
  trans : ∀ {x y z}, relates x y → relates y z → relates x z
  antisymm : ∀ {x y}, relates x y → relates y x → (x == y) = true
  of_better : ∀ {x y}, x.isNaN = false → y.isNaN = false → better x y → relates x y
  of_not_better : ∀ {x y}, x.isNaN = false → y.isNaN = false → ¬ better x y → relates y x

theorem prefers_smaller : Prefers (· < ·) (· ≤ ·) where
  self := Decimal.le_self
  trans := Decimal.le_of_le_of_le
  antisymm := Decimal.beq_of_le_of_le
  of_better := Decimal.le_of_lt
  of_not_better := Decimal.le_of_not_lt

theorem prefers_greater : Prefers (· > ·) (· ≥ ·) where
  self := Decimal.le_self
  trans h h' := Decimal.le_of_le_of_le h' h
  antisymm h h' := Decimal.beq_of_le_of_le h' h
  of_better hx hy h := Decimal.le_of_lt hy hx h
  of_not_better hx hy h := Decimal.le_of_not_lt hy hx h

section
variable {better relates : Float → Float → Prop} [DecidableRel better]

/-- Keeping the better one at each step leaves the best. The invariant is that the value kept is the
best of those seen. -/
theorem Prefers.best_foldl (h : Prefers better relates) (x : Sample) (xs : List Sample)
    (hnumber : ∀ y ∈ x :: xs, y.1.isNaN = false) :
    Best relates ((x :: xs).map Prod.fst)
      (xs.foldl (fun kept y => if better y.1 kept then y.1 else kept) x.1) := by
  induction xs using List.reverseRecOn with
  | nil =>
    have hx := hnumber x List.mem_cons_self
    exact ⟨by simp, by simpa using h.self hx⟩
  | append_singleton xs y ih =>
    have hy : y.1.isNaN = false := hnumber y (by simp)
    have hseen : ∀ z ∈ x :: xs, z.1.isNaN = false := fun z hz => by
      rw [← List.cons_append] at hnumber
      exact hnumber z (List.mem_append_left _ hz)
    obtain ⟨hmem, hbest⟩ := ih hseen
    rw [List.foldl_append, List.foldl_cons, List.foldl_nil]
    set kept := xs.foldl (fun kept y => if better y.1 kept then y.1 else kept) x.1
    have hkept : kept.isNaN = false := by
      obtain ⟨z, hz, hzkept⟩ := List.mem_map.1 hmem
      exact hzkept ▸ hseen z hz
    have hvalues : (x :: (xs ++ [y])).map Prod.fst = (x :: xs).map Prod.fst ++ [y.1] := by simp
    rw [hvalues]
    split
    · next hbetter =>
      have hle := h.of_better hy hkept hbetter
      refine ⟨by simp, fun z hz => ?_⟩
      rcases List.mem_append.1 hz with hz | hz
      · exact h.trans hle (hbest z hz)
      · rw [List.mem_singleton.1 hz]
        exact h.self hy
    · next hworse =>
      have hle := h.of_not_better hy hkept hworse
      refine ⟨List.mem_append_left _ hmem, fun z hz => ?_⟩
      rcases List.mem_append.1 hz with hz | hz
      · exact hbest z hz
      · rw [List.mem_singleton.1 hz]
        exact hle

end

/-! ## The newest sample -/

/-- The first sample of those with the greatest timestamp. -/
def Newest (samples : List Sample) (x : Sample) : Prop :=
  ∃ before after, samples = before ++ x :: after ∧ (∀ y ∈ before, y.2 < x.2) ∧
    ∀ y ∈ after, y.2 ≤ x.2

theorem Newest.le {samples : List Sample} {x : Sample} (h : Newest samples x) :
    ∀ y ∈ samples, y.2 ≤ x.2 := by
  obtain ⟨before, after, rfl, hbefore, hafter⟩ := h
  intro y hy
  rcases List.mem_append.1 hy with hy | hy
  · exact Int.le_of_lt (hbefore y hy)
  · rcases List.mem_cons.1 hy with rfl | hy
    · exact Int.le_refl _
    · exact hafter y hy

theorem newest_foldl (x : Sample) (xs : List Sample) :
    Newest (x :: xs) (xs.foldl (fun newest y => if y.2 > newest.2 then y else newest) x) := by
  induction xs using List.reverseRecOn with
  | nil => exact ⟨[], [], rfl, by simp, by simp⟩
  | append_singleton xs y ih =>
    rw [List.foldl_append, List.foldl_cons, List.foldl_nil]
    split
    · next hnewer =>
      refine ⟨x :: xs, [], rfl, fun z hz => ?_, by simp⟩
      exact Int.lt_of_le_of_lt (ih.le z hz) hnewer
    · next holder =>
      obtain ⟨before, after, hsplit, hbefore, hafter⟩ := ih
      refine ⟨before, after ++ [y], ?_, hbefore, ?_⟩
      · rw [← List.cons_append, hsplit, List.append_assoc, List.cons_append]
      · intro z hz
        rcases List.mem_append.1 hz with hz | hz
        · exact hafter z hz
        · rw [List.mem_singleton.1 hz]
          exact Int.not_lt.1 holder

/-! ## Summaries -/

namespace Statistic

/-- Whether a value is what a statistic says of samples, of which there is at least one. A smallest
or greatest value is promised of numbers only. -/
def Summarizes (x : Float) (samples : List Sample) : Statistic → Prop
  | .sum => x = sumFrom 0 samples
  | .average => x = sumFrom 0 samples / Float.ofNat samples.length
  | .count => x = Float.ofNat samples.length
  | .last => ∃ newest, Newest samples newest ∧ x = newest.1
  | .min => (∀ y ∈ samples, y.1.isNaN = false) → Best (· ≤ ·) (samples.map Prod.fst) x
  | .max => (∀ y ∈ samples, y.1.isNaN = false) → Best (· ≥ ·) (samples.map Prod.fst) x

theorem summarizes_aggregate (kind : Statistic) {samples : List Sample} (hne : samples ≠ []) :
    kind.Summarizes (kind.aggregate samples) samples := by
  obtain ⟨x, xs, rfl⟩ := List.exists_cons_of_ne_nil hne
  cases kind with
  | sum => rfl
  | average => rfl
  | count => rfl
  | last => exact ⟨_, newest_foldl x xs, rfl⟩
  | min => exact prefers_smaller.best_foldl x xs
  | max => exact prefers_greater.best_foldl x xs

end Statistic

end MetricAlarm
