import MetricAlarm.Proofs.Accumulator.Summary

/-!
# Samples in another order

The same samples in two orders are counted alike, and have the same newest one if no two of them have
the same timestamp. Their smallest and greatest values are equal as numbers: of zeros of either sign
the first one is kept. Sums are rounded at each step and promise nothing. Main statement:
`sameValue_addAll`.
-/

namespace MetricAlarm

/-! ## Best values -/

/-- The best of the same values in two orders are equal as numbers. -/
theorem Prefers.beq {better relates : Float → Float → Prop} (h : Prefers better relates)
    {values values' : List Float} (hp : values.Perm values') {x y : Float}
    (hx : Best relates values x) (hy : Best relates values' y) : (x == y) = true :=
  h.antisymm (hx.relates y (hp.mem_iff.2 hy.mem)) (hy.relates x (hp.mem_iff.1 hx.mem))

section
variable {better relates : Float → Float → Prop} [DecidableRel better]
  {state : Option Float → Accumulator}

/-- An accumulator, given by what it holds, that keeps the better value of two. -/
structure Keeps (better : Float → Float → Prop) [DecidableRel better]
    (state : Option Float → Accumulator) : Prop where
  first : ∀ x : Sample, (state none).add x.1 x.2 = state (some x.1)
  next : ∀ (kept : Float) (x : Sample),
    (state (some kept)).add x.1 x.2 = state (some (if better x.1 kept then x.1 else kept))
  value : ∀ kept, (state (some kept)).value = kept

theorem keeps_min : Keeps (· < ·) Accumulator.min where
  first _ := rfl
  next _ _ := rfl
  value _ := rfl

theorem keeps_max : Keeps (· > ·) Accumulator.max where
  first _ := rfl
  next _ _ := rfl
  value _ := rfl

/-- What is held in the end is the best of what was held before and of what was taken in. -/
theorem Keeps.best_addAll (hk : Keeps better state) (h : Prefers better relates)
    (held : Option Float) {xs : List Sample} (hne : xs ≠ [])
    (hheld : ∀ kept ∈ held, kept.isNaN = false) (hnumber : ∀ x ∈ xs, x.1.isNaN = false) :
    Best relates (held.toList ++ xs.map Prod.fst) ((state held).addAll xs).value := by
  cases held with
  | none =>
    obtain ⟨x, rest, rfl⟩ := List.exists_cons_of_ne_nil hne
    have hrest : (state none).addAll (x :: rest) = (state (some x.1)).addAll rest := by
      rw [← hk.first]
      rfl
    rw [hrest, Accumulator.addAll_eq (fun kept => state (some kept)) hk.next, hk.value]
    exact h.best_foldl x rest hnumber
  | some kept =>
    rw [Accumulator.addAll_eq (fun kept => state (some kept)) hk.next, hk.value]
    refine h.best_foldl (kept, 0) xs fun x hx => ?_
    rcases List.mem_cons.1 hx with rfl | hx
    · exact hheld kept rfl
    · exact hnumber x hx

theorem Keeps.number_of_initialized (hk : Keeps better state) {held : Option Float}
    (h : (state held).isInitialized = true → (state held).value.isNaN = false) :
    ∀ kept ∈ held, kept.isNaN = false := by
  rintro kept rfl
  rw [← hk.value kept]
  apply h
  rw [← hk.first (kept, 0)]
  exact Accumulator.isInitialized_add _ _ _

theorem Keeps.sameValue (hk : Keeps better state) (h : Prefers better relates)
    (held : Option Float) {xs ys : List Sample} (hp : xs.Perm ys)
    (hbefore : (state held).isInitialized = true → (state held).value.isNaN = false)
    (hnumber : ∀ x ∈ xs, x.1.isNaN = false) :
    if xs = [] then ((state held).addAll xs).value = ((state held).addAll ys).value
    else (((state held).addAll xs).value == ((state held).addAll ys).value) = true := by
  have hheld := hk.number_of_initialized hbefore
  split
  · next hnil =>
    subst hnil
    rw [hp.nil_eq]
  · next hne =>
    have hne' : ys ≠ [] := by
      rintro rfl
      exact hne hp.eq_nil
    have hnumber' : ∀ y ∈ ys, y.1.isNaN = false := fun y hy => hnumber y (hp.mem_iff.2 hy)
    have hx := hk.best_addAll h held hne hheld hnumber
    have hy := hk.best_addAll h held hne' hheld hnumber'
    exact h.beq ((hp.map _).append_left _) hx hy

end

namespace Accumulator

/-! ## Newest samples -/

/-- The newest sample after one more. -/
def newer (newest : Option Sample) (x : Sample) : Option Sample :=
  match newest with
  | none => some x
  | some held => some (if x.2 > held.2 then x else held)

theorem addAll_last (newest : Option Sample) (xs : List Sample) :
    (last newest).addAll xs = last (xs.foldl newer newest) := by
  refine addAll_eq last (fun held x => ?_) newest xs
  cases held <;> rfl

/-- Samples of different timestamps can be taken in either order. -/
theorem newer_comm (newest : Option Sample) {x y : Sample} (hne : x.2 ≠ y.2) :
    newer (newer newest x) y = newer (newer newest y) x := by
  cases newest with
  | none =>
    simp only [newer]
    split_ifs <;> first | rfl | omega
  | some held =>
    simp only [newer]
    split_ifs <;> first | rfl | omega

theorem addAll_last_perm (newest : Option Sample) {xs ys : List Sample} (hp : xs.Perm ys)
    (hnodup : (xs.map Prod.snd).Nodup) : (last newest).addAll xs = (last newest).addAll ys := by
  have hcomm : ∀ x ∈ xs, ∀ y ∈ xs, ∀ held, newer (newer held x) y = newer (newer held y) x := by
    intro x hx y hy held
    by_cases heq : x.2 = y.2
    · rw [List.inj_on_of_nodup_map hnodup hx hy heq]
    · exact newer_comm held heq
  rw [addAll_last, addAll_last, hp.foldl_eq' hcomm]

end Accumulator

/-! ## Values -/

/-- How far the values of an accumulator agree after samples that came in two orders. Counts are the
same, and so are last values of samples whose timestamps differ. Smallest and greatest values are
equal as numbers, unless something that is not a number is among the samples or was held before. -/
def Statistic.SameValue (before : Accumulator) (samples : List Sample) (x y : Float) :
    Statistic → Prop
  | .sum | .average => True
  | .count => x = y
  | .last => (samples.map Prod.snd).Nodup → x = y
  | .min | .max =>
    (before.isInitialized = true → before.value.isNaN = false) →
      (∀ z ∈ samples, z.1.isNaN = false) → if samples = [] then x = y else (x == y) = true

open Accumulator in
theorem Accumulator.sameValue_addAll (a : Accumulator) {xs ys : List Sample} (hp : xs.Perm ys) :
    a.kind.SameValue a xs (a.addAll xs).value (a.addAll ys).value := by
  cases a with
  | sum total => trivial
  | average total => trivial
  | count n =>
    change ((count n).addAll xs).value = ((count n).addAll ys).value
    rw [addAll_count, addAll_count, hp.length_eq]
  | last newest =>
    intro hnodup
    rw [addAll_last_perm newest hp hnodup]
  | min held => exact keeps_min.sameValue prefers_smaller held hp
  | max held => exact keeps_max.sameValue prefers_greater held hp

end MetricAlarm
