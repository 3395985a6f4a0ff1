import MetricAlarm.Proofs.Window.Grid

/-!
# Which slots receive samples

Rounded timestamps are multiples of the unit of the resolution, so a slot without a multiple in it
never receives a sample. Slots as wide as the unit always do, and a window that was slid past all its
slots can then be filled anew. Main statements: `Regular.receives_iff`, `Regular.receives_of_unit_le`
and `FilledTo.addAt`.
-/

namespace MetricAlarm

namespace Window

/-- Some timestamp is looked up in the slot. -/
def Receives (w : Window) (i : Nat) : Prop :=
  ∃ t, Timestamp.InRange t ∧ w.placeOf? t = some (w.physical i)

variable {kind : Statistic} {w : Window}

/-! ## Slots and multiples of the unit -/

/-- A multiple of the unit that lies in a slot is rounded to itself. -/
theorem Regular.receives_of_dvd (h : Regular kind w) (hb : w.Bounded) {i : Nat}
    (hi : i < w.slots.size) {t : Int} (ht : w.resolution.unit ∣ t)
    (hl : w.start + i * w.slotWidth ≤ t) (hu : t < w.start + i * w.slotWidth + w.slotWidth) :
    w.Receives i := by
  have hfirst := h.inRange_slot hb (Nat.le_of_lt hi)
  have hnext := h.inRange_slot hb (show i + 1 ≤ w.slots.size from hi)
  rw [Int.natCast_add_one, Int.add_mul, Int.one_mul] at hnext
  have hrange : Timestamp.InRange t := ⟨Int.le_trans hfirst.1 hl, by have := hnext.2; omega⟩
  refine ⟨t, hrange, h.placeOf?_eq hi ?_⟩
  rw [Meets, w.resolution.adjust_eq_self ht hrange]
  exact ⟨hl, hu⟩

/-- A slot receives samples exactly when a multiple of the unit lies in it. The earliest timestamps
are rounded to what need not be a multiple, but they lie in front of the window. -/
theorem Regular.receives_iff (h : Regular kind w) (hb : w.Bounded)
    (hgrid : OnGrid w.resolution.perSecond w) {i : Nat} (hi : i < w.slots.size) :
    w.Receives i ↔ ∃ t, w.resolution.unit ∣ t ∧ w.start + i * w.slotWidth ≤ t ∧
      t < w.start + i * w.slotWidth + w.slotWidth := by
  constructor
  · rintro ⟨t, hrange, hplace⟩
    have hcovers : w.Covers t := by
      rw [← placeOf?_isSome, hplace]
      rfl
    obtain ⟨j, hj, hmeets, hplace'⟩ := h.exists_slot hcovers
    have hij : i = j := by
      rw [← physical_inj hi hj]
      exact Option.some.inj (hplace.symm.trans hplace')
    subst hij
    refine ⟨w.resolution.adjust t, ?_, hmeets⟩
    by_cases hleast : w.resolution.adjust t = Timestamp.least
    · have hstart : w.start = Timestamp.least :=
        Int.le_antisymm (hleast ▸ hcovers.1) hb.least_le
      have hdvd := hgrid.start
      rw [hstart] at hdvd
      rw [hleast]
      cases hres : w.resolution with
      | absolute => exact one_dvd _
      | seconds | minutes =>
        rw [hres] at hdvd
        exact absurd hdvd (by decide)
    · exact w.resolution.unit_dvd_adjust hrange hleast
  · rintro ⟨t, ht, hl, hu⟩
    exact h.receives_of_dvd hb hi ht hl hu

/-- Slots that are as wide as the unit hold a multiple of it. -/
theorem Regular.receives_of_unit_le (h : Regular kind w) (hb : w.Bounded)
    (hunit : w.resolution.unit ≤ w.slotWidth) {i : Nat} (hi : i < w.slots.size) :
    w.Receives i := by
  have hpos : 0 < w.resolution.unit := by cases w.resolution <;> decide
  let q := (w.start + i * w.slotWidth + w.resolution.unit - 1) / w.resolution.unit
  have hl : q * w.resolution.unit ≤ w.start + i * w.slotWidth + w.resolution.unit - 1 :=
    Int.ediv_mul_le _ (Int.ne_of_gt hpos)
  have hu : w.start + i * w.slotWidth + w.resolution.unit - 1 < (q + 1) * w.resolution.unit :=
    Int.lt_ediv_add_one_mul_self _ hpos
  rw [Int.add_mul, Int.one_mul] at hu
  exact h.receives_of_dvd hb hi (Int.dvd_mul_left q _) (by omega) (by omega)

/-- The newest slot of the first view ends at a multiple of the unit; if it is narrower than the
unit, there is no other in it. -/
theorem not_receives_newest {shape : WindowShape} (h : create shape = .ok w)
    (hrange : Timestamp.InRange shape.viewEnd) (hgrid : OnGrid w.resolution.perSecond w)
    (hnarrow : w.slotWidth < w.resolution.unit) : ¬ w.Receives (w.viewSlots - 1) := by
  have hr := regular_create h
  have hview := hr.view_pos
  have hle := hr.view_le
  rw [hr.receives_iff (bounded_create h) hgrid (by omega)]
  rintro ⟨t, ht, hl, hu⟩
  have hend := unit_dvd_viewEnd_create h hrange
  rw [← (frame_create h).2.2.2] at hend
  have hslot := hr.viewEnd_eq_start
  have hcast : ((w.viewSlots - 1 : Nat) : Int) = w.viewSlots - 1 := Int.ofNat_sub hview
  rw [hcast, Int.sub_mul, Int.one_mul] at hl hu
  have hwidth := Int.le_of_dvd (by omega) (Int.dvd_sub hend ht)
  omega

/-! ## Filling an empty window -/

/-- The first `n` slots hold one sample of value one each, and the others are empty. -/
structure FilledTo (kind : Statistic) (n : Nat) (w : Window) : Prop where
  regular : Regular kind w
  filled : ∀ i < n, ∃ s t, w.contents[i]? = some s ∧ s.samples = kind.fresh.add 1 t
  empty : ∀ i s, n ≤ i → w.contents[i]? = some s → s.samples = kind.fresh

/-- A slide over the whole window leaves nothing in it. -/
theorem Regular.filledTo_advance (h : Regular kind w) {n : Nat} (hn : w.slots.size ≤ n) :
    FilledTo kind 0 (w.advance n) := by
  refine ⟨h.advance n, fun i hi => absurd hi (Nat.not_lt_zero i), ?_⟩
  intro i s _ hs
  rw [contents_advance h.size_pos h.kind_eq, List.getElem?_drop,
    List.getElem?_append_right (by rw [length_contents]; omega)] at hs
  obtain ⟨j, -, rfl⟩ := List.mem_map.1 (List.mem_of_getElem? hs)
  rfl

theorem FilledTo.addAt {n : Nat} (h : FilledTo kind n w) (hn : n < w.slots.size) (t : Int) :
    FilledTo kind (n + 1) (w.addAt (w.physical n) 1 t) := by
  refine ⟨h.regular.addAt _ 1 t, ?_, ?_⟩
  · intro i hi
    rw [contents_addAt w hn, List.getElem?_modify]
    by_cases heq : n = i
    · subst heq
      obtain ⟨s, hs⟩ : ∃ s, w.contents[n]? = some s :=
        ⟨_, List.getElem?_eq_getElem (by rwa [length_contents])⟩
      refine ⟨s.add 1 t, t, ?_, ?_⟩
      · simp [hs]
      · rw [Slot.add, h.empty n s (Nat.le_refl n) hs]
    · obtain ⟨s, t', hs, hsamples⟩ := h.filled i (by omega)
      exact ⟨s, t', by simp [hs, heq], hsamples⟩
  · intro i s hi hs
    rw [contents_addAt w hn, List.getElem?_modify_ne _ _ (show n ≠ i by omega)] at hs
    exact h.empty i s (by omega) hs

theorem receives_addAt (w : Window) (place : Nat) (v : Float) (t : Int) (i : Nat) :
    (w.addAt place v t).Receives i ↔ w.Receives i := by
  have hphysical (j : Nat) : (w.addAt place v t).physical j = w.physical j := by
    simp [physical, addAt]
  have hplace (t' : Int) : (w.addAt place v t).placeOf? t' = w.placeOf? t' := by
    simp only [placeOf?, hphysical]
    rfl
  simp only [Receives, hphysical, hplace]

/-- One sample is a value, whatever the statistic. -/
theorem isNaN_value_one (kind : Statistic) (t : Int) : (kind.fresh.add 1 t).value.isNaN = false := by
  have hone : ∀ x : Float, x = 1 ∨ x = 0 + 1 ∨ x = (0 + 1) / Float.ofNat 1 ∨ x = Float.ofNat 1 →
      x.isNaN = false := by
    rintro x (rfl | rfl | rfl | rfl) <;> decide +kernel
  apply hone
  cases kind <;> simp [Statistic.fresh, Accumulator.add, Accumulator.value]

theorem FilledTo.viewValues {n : Nat} (h : FilledTo kind n w) (hn : w.viewSlots ≤ n) :
    ∀ x ∈ w.viewValues, x.isNaN = false := by
  intro x hx
  obtain ⟨i, hi, rfl⟩ := List.mem_map.1 hx
  obtain ⟨s, t, hs, hsamples⟩ := h.filled i (Nat.lt_of_lt_of_le (List.mem_range.1 hi) hn)
  rw [valueAt_physical w hs, hsamples]
  exact isNaN_value_one kind t

end Window

end MetricAlarm
