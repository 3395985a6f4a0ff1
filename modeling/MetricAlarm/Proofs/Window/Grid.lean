import MetricAlarm.Proofs.Window.Consistency

/-!
# Windows on a grid

Timestamps are rounded down to the unit of the resolution before they are looked up. Bounds that are
multiples of the unit do not notice it: rounding takes no timestamp past them. What divides the
width and the start of a window divides all its bounds in every later state. Main statements:
`Resolution.le_adjust_iff` and `onGrid_run`.
-/

namespace MetricAlarm

namespace Resolution

/-- A multiple of the unit lies in front of a rounded timestamp exactly when it lies in front of the
timestamp itself. -/
theorem le_adjust_iff (r : Resolution) {b : Int} (hb : r.unit ∣ b) (hrange : Timestamp.InRange b)
    (t : Int) : b ≤ r.adjust t ↔ b ≤ t := by
  obtain ⟨hl, hu⟩ := hrange
  cases r with
  | absolute => exact Iff.rfl
  | seconds | minutes =>
    simp only [unit, adjust, Timestamp.clamp, Timestamp.least, Timestamp.greatest] at *
    omega

theorem adjust_eq_self (r : Resolution) {t : Int} (ht : r.unit ∣ t)
    (hrange : Timestamp.InRange t) : r.adjust t = t :=
  Int.le_antisymm (r.adjust_le hrange) ((r.le_adjust_iff ht hrange t).2 (Int.le_refl t))

/-- Rounding gives a multiple of the unit, but for the earliest timestamps. -/
theorem unit_dvd_adjust (r : Resolution) {t : Int} (ht : Timestamp.InRange t)
    (hne : r.adjust t ≠ Timestamp.least) : r.unit ∣ r.adjust t := by
  obtain ⟨hl, hu⟩ := ht
  cases r with
  | absolute => exact one_dvd _
  | seconds | minutes =>
    simp only [unit, adjust, Timestamp.clamp, Timestamp.least, Timestamp.greatest] at *
    omega

end Resolution

namespace Window

/-- The bounds of all slots are multiples of `g`. -/
structure OnGrid (g : Int) (w : Window) : Prop where
  width : g ∣ w.slotWidth
  start : g ∣ w.start

variable {kind : Statistic} {w : Window} {g : Int}

theorem OnGrid.slot (h : OnGrid g w) (i : Nat) : g ∣ w.start + i * w.slotWidth :=
  Int.dvd_add h.start (Int.dvd_mul_of_dvd_right h.width)

theorem OnGrid.run (h : OnGrid g w) (hr : Regular kind w) (calls : List Call) :
    OnGrid g (w.run calls) := by
  obtain ⟨n, hn⟩ := hr.movedBy_run calls
  constructor
  · rw [(hr.frame_run calls).2.2.1]
    exact h.width
  · rw [hn.start_eq]
    exact h.slot n

/-- The view of a fresh window ends behind the earliest timestamp, so it ends at a multiple of the
unit. -/
theorem unit_dvd_viewEnd_create {shape : WindowShape} (h : create shape = .ok w)
    (hrange : Timestamp.InRange shape.viewEnd) : shape.resolution.unit ∣ w.viewEnd := by
  have hr := regular_create h
  have hstart := hr.viewEnd_eq_start
  have hleast := (bounded_create h).least_le
  have hview : 0 < (w.viewSlots : Int) * w.slotWidth :=
    Int.mul_pos (Int.natCast_pos.2 hr.view_pos) hr.width_pos
  have hend : w.viewEnd = shape.resolution.adjust shape.viewEnd := by
    obtain ⟨-, -, -, rfl⟩ := create_eq_ok h
    rfl
  rw [hend]
  exact shape.resolution.unit_dvd_adjust hrange (by omega)

theorem onGrid_create {shape : WindowShape} (h : create shape = .ok w)
    (hrange : Timestamp.InRange shape.viewEnd) (hunit : g ∣ shape.resolution.unit)
    (hwidth : g ∣ shape.slotWidth) : OnGrid g w := by
  have hslot : g ∣ w.slotWidth := by rwa [(frame_create h).2.2.1]
  refine ⟨hslot, ?_⟩
  rw [← Int.dvd_add_left (Int.dvd_mul_of_dvd_right hslot),
    ← (regular_create h).viewEnd_eq_start]
  exact Int.dvd_trans hunit (unit_dvd_viewEnd_create h hrange)

theorem onGrid_run {shape : WindowShape} (h : create shape = .ok w)
    (hrange : Timestamp.InRange shape.viewEnd) (hunit : g ∣ shape.resolution.unit)
    (hwidth : g ∣ shape.slotWidth) (calls : List Call) : OnGrid g (w.run calls) :=
  (onGrid_create h hrange hunit hwidth).run (regular_create h) calls

/-- The bounds of the slots are timestamps. -/
theorem Regular.inRange_slot (h : Regular kind w) (hb : w.Bounded) {i : Nat}
    (hi : i ≤ w.slots.size) : Timestamp.InRange (w.start + i * w.slotWidth) := by
  have hw := h.width_pos
  have hl := hb.least_le
  have hu := hb.le_greatest
  have hend := h.windowEnd_eq_start
  have hpos : 0 ≤ (i : Int) * w.slotWidth := Int.mul_nonneg (by omega) (by omega)
  have hle : (i : Int) * w.slotWidth ≤ w.slots.size * w.slotWidth :=
    Int.mul_le_mul_of_nonneg_right (Int.ofNat_le.2 hi) (by omega)
  exact ⟨by omega, by omega⟩

end Window

end MetricAlarm
