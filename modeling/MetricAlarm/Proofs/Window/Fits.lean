import Mathlib.Algebra.Order.Ring.Int
import MetricAlarm.Proofs.Window.Checked

/-!
# Shapes that fit

A window can be made exactly when its slots can be counted in sixty-four bits, its length and its
bounds are timestamps, and one array can hold the slots. No step of making it leaves the range,
whether the shape fits or not. Main statements: `exists_create_iff` and `create_exact`.
-/

namespace MetricAlarm

/-- The elements have results of their own, so they have them together. -/
theorem mapM_eq_some_map {α β : Type} {f : α → Option β} {g : α → β} {xs : List α}
    (h : ∀ x ∈ xs, f x = some (g x)) : xs.mapM f = some (xs.map g) := by
  induction xs with
  | nil => rfl
  | cons x xs ih =>
    obtain ⟨hx, hxs⟩ := List.forall_mem_cons.1 h
    rw [List.mapM_cons, hx, ih hxs]
    rfl

/-- A shape that fits: its slots are counted in sixty-four bits, and the length of the window and
its bounds are timestamps. -/
structure WindowShape.Fits (s : WindowShape) : Prop where
  width_pos : 0 < s.slotWidth
  view_pos : 0 < s.viewSlots
  count_lt : s.viewSlots + s.futureSlots < 2 ^ 64
  length_le : ((s.viewSlots : Int) + s.futureSlots) * s.slotWidth ≤ Timestamp.greatest
  windowEnd_le : s.resolution.adjust s.viewEnd + s.futureSlots * s.slotWidth ≤ Timestamp.greatest
  least_le : Timestamp.least ≤ s.resolution.adjust s.viewEnd - s.viewSlots * s.slotWidth

/-- One array can hold the slots. -/
def WindowShape.Storable (s : WindowShape) : Prop :=
  (s.viewSlots + s.futureSlots) * Slot.octets ≤ mostOctets

instance (s : WindowShape) : Decidable s.Storable := inferInstanceAs (Decidable (_ ≤ _))

namespace Window

/-! ## Shapes -/

theorem span?_eq_some_iff {viewEnd width e l : Int} {view future : Nat} (hw : 0 < width) :
    span? viewEnd width future (view + future) = some (e, l) ↔
      (e = viewEnd + future * width ∧ l = ((view : Int) + future) * width) ∧
      ((view : Int) + future) * width ≤ Timestamp.greatest ∧
      viewEnd + future * width ≤ Timestamp.greatest ∧
      Timestamp.least ≤ viewEnd - view * width := by
  have hview : 0 ≤ (view : Int) * width := Int.mul_nonneg (by omega) (by omega)
  have hfuture : (future : Int) ≤ future * width := le_mul_of_one_le_right (by omega) hw
  have hcount : (view : Int) + future ≤ (view + future) * width :=
    le_mul_of_one_le_right (by omega) hw
  have hsum : ((view : Int) + future) * width = view * width + future * width := Int.add_mul ..
  have hleast : Timestamp.least ≤ 0 := by decide
  simp only [span?, Option.bind_eq_bind, Option.bind_eq_some_iff, checked_eq_some,
    Option.some.injEq, Prod.mk.injEq, Int.natCast_add]
  constructor
  · rintro ⟨_, ⟨-, rfl⟩, _, ⟨-, rfl⟩, _, ⟨hend, rfl⟩, _, ⟨-, rfl⟩, _, ⟨hlength, rfl⟩, _, ⟨hstart, -⟩,
      rfl, rfl⟩
    have hstart := hstart.1
    exact ⟨⟨rfl, rfl⟩, hlength.2, hend.2, by omega⟩
  · rintro ⟨⟨rfl, rfl⟩, hlength, hend, hstart⟩
    refine ⟨_, ⟨⟨?_, ?_⟩, rfl⟩, _, ⟨⟨?_, ?_⟩, rfl⟩, _, ⟨⟨?_, hend⟩, rfl⟩, _, ⟨⟨?_, ?_⟩, rfl⟩, _,
      ⟨⟨?_, hlength⟩, rfl⟩, _, ⟨⟨?_, ?_⟩, rfl⟩, rfl, rfl⟩ <;> omega

theorem exists_passes_iff (s : WindowShape) : (∃ e l, Passes s e l) ↔ s.Fits := by
  constructor
  · rintro ⟨e, l, hwidth, hview, hcount, hspan⟩
    obtain ⟨-, hlength, hend, hstart⟩ := (span?_eq_some_iff hwidth).1 hspan
    exact ⟨hwidth, hview, hcount, hlength, hend, hstart⟩
  · rintro ⟨hwidth, hview, hcount, hlength, hend, hstart⟩
    have hspan := (span?_eq_some_iff hwidth).2 ⟨⟨rfl, rfl⟩, hlength, hend, hstart⟩
    exact ⟨_, _, hwidth, hview, hcount, hspan⟩

/-- A window of a shape can be made exactly when the shape fits and its slots can be stored. -/
theorem exists_create_iff (s : WindowShape) :
    (∃ w, create s = .ok w) ↔ s.Fits ∧ s.Storable := by
  constructor
  · rintro ⟨w, h⟩
    obtain ⟨hstorable, e, l, hpasses, -⟩ := accepted_of_create h
    exact ⟨(exists_passes_iff s).1 ⟨e, l, hpasses⟩, hstorable⟩
  · rintro ⟨hfits, hstorable⟩
    obtain ⟨e, l, hpasses⟩ := (exists_passes_iff s).2 hfits
    exact ⟨_, hpasses.create_eq.trans (if_neg (Nat.not_lt_of_le hstorable))⟩

/-- Only memory is missing when the shape fits, but its slots cannot be stored. -/
theorem create_eq_memory_iff (s : WindowShape) :
    create s = .error .memory ↔ s.Fits ∧ ¬ s.Storable := by
  constructor
  · intro h
    obtain ⟨e, l, hpasses⟩ | ⟨fault, hfault, hrefused⟩ := passes_or_refused s
    · refine ⟨(exists_passes_iff s).1 ⟨e, l, hpasses⟩, fun hstorable => ?_⟩
      rw [hpasses.create_eq, if_neg (Nat.not_lt_of_le hstorable)] at h
      cases h
    · rw [hrefused] at h
      exact absurd (Except.error.inj h) hfault
  · rintro ⟨hfits, hstorable⟩
    obtain ⟨e, l, hpasses⟩ := (exists_passes_iff s).2 hfits
    exact hpasses.create_eq.trans (if_pos (Nat.lt_of_not_le hstorable))

theorem slotStart_eq {first width : Int} {i n : Nat} (hw : 0 < width) (hi : i ≤ n)
    (hlength : n * width ≤ Timestamp.greatest) (hfirst : Timestamp.InRange first)
    (hlast : first + n * width ≤ Timestamp.greatest) :
    Checked.slotStart first width i = some (first + i * width) := by
  obtain ⟨hl, hu⟩ := hfirst
  have hnumber : (i : Int) ≤ i * width := le_mul_of_one_le_right (by omega) hw
  have hle : (i : Int) * width ≤ n * width :=
    Int.mul_le_mul_of_nonneg_right (Int.ofNat_le.2 hi) (by omega)
  have hleast : Timestamp.least ≤ 0 := by decide
  have hcount : Timestamp.ofCount? i = some (i : Int) := Timestamp.ofCount?_eq (by omega)
  have hoffset : Timestamp.mul? i width = some (i * width) :=
    Timestamp.mul?_eq ⟨by omega, by omega⟩
  have hstart : Timestamp.add? first (i * width) = some (first + i * width) :=
    Timestamp.add?_eq ⟨by omega, by omega⟩
  simp only [Checked.slotStart, hcount, hoffset, hstart, Option.bind_eq_bind, Option.bind_some]

theorem slotStarts_eq {first width : Int} (count : Nat) {n : Nat} (hw : 0 < width)
    (hcount : count ≤ n + 1) (hlength : n * width ≤ Timestamp.greatest)
    (hfirst : Timestamp.InRange first) (hlast : first + n * width ≤ Timestamp.greatest) :
    (List.range count).mapM (Checked.slotStart first width) =
      some ((List.range count).map fun i : Nat => first + i * width) := by
  refine mapM_eq_some_map fun i hi => slotStart_eq hw ?_ hlength hfirst hlast
  have hlt := List.mem_range.1 hi
  omega

theorem freshSlots_eq (kind : Statistic) (first width : Int) (n : Nat) :
    (((List.range n).map fun i : Nat => first + i * width).map (Slot.empty kind)).toArray =
      freshSlots kind first width n := by
  apply Array.ext
  · simp [freshSlots]
  · intro i h₁ h₂
    simp [freshSlots, Slot.empty]

theorem create_exact (s : WindowShape) (hrange : Timestamp.InRange s.viewEnd) :
    Checked.create s = some (create s) := by
  unfold Checked.create create
  dsimp only
  by_cases hwidth : s.slotWidth ≤ 0
  · rw [if_pos hwidth, if_pos hwidth]
  by_cases hview : s.viewSlots = 0
  · rw [if_neg hwidth, if_pos hview, if_neg hwidth, if_pos hview]
  rw [if_neg hwidth, if_neg hview, if_neg hwidth, if_neg hview]
  by_cases hsize : UInt64.size ≤ s.viewSlots + s.futureSlots
  · have hcount : Count.add? s.viewSlots s.futureSlots = none := if_neg (by omega)
    rw [hcount, if_pos hsize]
  have hcount : Count.add? s.viewSlots s.futureSlots = some (s.viewSlots + s.futureSlots) :=
    if_pos (by omega)
  rw [hcount, if_neg hsize]
  dsimp only
  rw [Resolution.adjust?_eq _ hrange, Option.bind_eq_bind, Option.bind_some]
  cases hspan : span? (s.resolution.adjust s.viewEnd) s.slotWidth s.futureSlots
      (s.viewSlots + s.futureSlots) with
  | none => rfl
  | some bounds =>
    obtain ⟨windowEnd, length⟩ := bounds
    have hpos : 0 < s.slotWidth := by omega
    obtain ⟨-, -, -, hstart⟩ := span?_eq_some hspan
    obtain ⟨⟨rfl, hlength⟩, hle, hend, -⟩ := (span?_eq_some_iff hpos).1 hspan
    have hstarts := slotStarts_eq (s.viewSlots + s.futureSlots)
      (n := s.viewSlots + s.futureSlots) hpos (by omega) (by rwa [Int.natCast_add]) hstart
      (by rw [Int.natCast_add, ← hlength]; omega)
    dsimp only
    rw [Timestamp.sub?_eq hstart, Option.bind_some]
    split_ifs
    · rfl
    · rw [Option.bind_eq_bind, hstarts, Option.bind_some, freshSlots_eq]
      rfl

end Window

end MetricAlarm
