import Mathlib.Data.Rat.Floor
import MetricAlarm.Proofs.Window.Distance

/-!
# Where a slide ends

A slide that is due takes the end of the view to a boundary of slots next to its timestamp: to the
first one that is no further behind it than the delay, or, for delays of a slot or more, to the last
one that is not past it. Only the end of time cuts it short. Main statements:
`Regular.slotsMoved_eq_min` and `viewEnd_slideTo`.
-/

namespace MetricAlarm.Window

/-- The slots by which the end of the view would have to move. -/
def slotsWanted (w : Window) (timestamp minDelay : Int) : Int :=
  if minDelay < w.slotWidth then ⌈((timestamp - w.viewEnd - minDelay : Int) : ℚ) / w.slotWidth⌉
  else ⌊((timestamp - w.viewEnd : Int) : ℚ) / w.slotWidth⌋

/-- The slots by which the window can move without its end passing the greatest timestamp. -/
def slotsLeft (w : Window) : Int := ⌊((Timestamp.greatest - w.windowEnd : Int) : ℚ) / w.slotWidth⌋

/-- Whole slots away from the end of the view. -/
def IsBoundary (w : Window) (b : Int) : Prop := ∃ k : Int, b = w.viewEnd + k * w.slotWidth

variable {kind : Statistic} {w : Window} {t d : Int}

/-! ## Quotients -/

theorem le_floor_iff {width : Int} (hw : 0 < width) (k x : Int) :
    k ≤ ⌊(x : ℚ) / width⌋ ↔ k * width ≤ x := by
  have hpos : (0 : ℚ) < width := Int.cast_pos.2 hw
  rw [Int.le_floor, le_div_iff₀ hpos]
  norm_cast

theorem lt_ceil_iff {width : Int} (hw : 0 < width) (k x : Int) :
    k < ⌈(x : ℚ) / width⌉ ↔ k * width < x := by
  have hpos : (0 : ℚ) < width := Int.cast_pos.2 hw
  rw [Int.lt_ceil, lt_div_iff₀ hpos]
  norm_cast

/-- The positions that are too far behind the timestamp for the end of the view to stay there. -/
theorem Regular.lt_slotsWanted_iff (h : Regular kind w) (t d k : Int) :
    k < w.slotsWanted t d ↔ w.viewEnd + k * w.slotWidth + w.grace d < t := by
  have hw := h.width_pos
  unfold slotsWanted grace
  split
  · rw [lt_ceil_iff hw]
    omega
  · rw [Int.lt_iff_add_one_le, le_floor_iff hw, Int.add_mul]
    omega

theorem Regular.lt_slotsLeft_iff (h : Regular kind w) (k : Nat) :
    k < w.slotsLeft ↔ w.HasRoom (k + 1) := by
  rw [slotsLeft, Int.lt_iff_add_one_le, le_floor_iff h.width_pos, HasRoom, Int.natCast_add_one]
  omega

/-! ## The end of the view -/

/-- A slide that is due moves the window as far as it should, or as far as it can. -/
theorem Regular.slotsMoved_eq_min (h : Regular kind w) (hb : w.Bounded) (hend : 0 ≤ w.windowEnd)
    (hd : 0 ≤ d) (ht : Timestamp.InRange t) (hdue : w.viewEnd + d < t) :
    (w.slotsMoved t d : Int) = min (w.slotsWanted t d) w.slotsLeft := by
  have hwanted : 0 < w.slotsWanted t d := by
    rw [h.lt_slotsWanted_iff, grace]
    omega
  have hleft : 0 ≤ w.slotsLeft := by
    have hle := hb.le_greatest
    rw [slotsLeft, le_floor_iff h.width_pos]
    omega
  have hmoved : w.slotsMoved t d = (min (w.slotsWanted t d) w.slotsLeft).toNat := by
    refine eq_of_forall_lt_iff fun k => ?_
    rw [h.lt_slotsMoved_iff hb hend hd ht, Int.lt_toNat, lt_min_iff, h.lt_slotsWanted_iff,
      h.lt_slotsLeft_iff]
    exact and_iff_right hdue
  rw [hmoved, Int.toNat_of_nonneg (le_min (Int.le_of_lt hwanted) hleft)]

theorem Regular.isLeast_boundary (h : Regular kind w) (hlt : d < w.slotWidth) :
    IsLeast {b | w.IsBoundary b ∧ t - d ≤ b} (w.viewEnd + w.slotsWanted t d * w.slotWidth) := by
  have hgrace : w.grace d = d := by
    unfold grace
    omega
  have hwanted := h.lt_slotsWanted_iff t d
  rw [hgrace] at hwanted
  constructor
  · have hstop := (hwanted (w.slotsWanted t d)).not.1 (Int.lt_irrefl _)
    exact ⟨⟨_, rfl⟩, by omega⟩
  · rintro _ ⟨⟨k, rfl⟩, hk⟩
    have hle : w.slotsWanted t d ≤ k := by
      rw [← Int.not_lt, hwanted]
      omega
    have hmul := Int.mul_le_mul_of_nonneg_right hle (Int.le_of_lt h.width_pos)
    omega

theorem Regular.isGreatest_boundary (h : Regular kind w) (hle : w.slotWidth ≤ d) :
    IsGreatest {b | w.IsBoundary b ∧ b ≤ t} (w.viewEnd + w.slotsWanted t d * w.slotWidth) := by
  have hgrace : w.grace d = w.slotWidth - 1 := by
    unfold grace
    omega
  -- A boundary is reached when the one in front of it is left.
  have hwanted : ∀ k, k ≤ w.slotsWanted t d ↔ w.viewEnd + k * w.slotWidth ≤ t := by
    intro k
    have hbefore := h.lt_slotsWanted_iff t d (k - 1)
    rw [hgrace, Int.sub_mul] at hbefore
    omega
  constructor
  · exact ⟨⟨_, rfl⟩, (hwanted _).1 (Int.le_refl _)⟩
  · rintro _ ⟨⟨k, rfl⟩, hk⟩
    have hmul := Int.mul_le_mul_of_nonneg_right ((hwanted k).2 hk) (Int.le_of_lt h.width_pos)
    omega

theorem Regular.not_isDue_of_wanted (h : Regular kind w) (hb : w.Bounded) (hd : 0 ≤ d)
    (ht : Timestamp.InRange t) (hmoved : (w.slotsMoved t d : Int) = w.slotsWanted t d) :
    (w.slideTo t d).isDue t d = false := by
  have hleast := h.least_le_viewEnd hb
  have hnonneg : 0 ≤ (w.slotsMoved t d : Int) * w.slotWidth :=
    Int.mul_nonneg (Int.natCast_nonneg _) (Int.le_of_lt h.width_pos)
  have hend := (h.movedBy_slideTo t d).viewEnd_eq
  have hstop := (h.lt_slotsWanted_iff t d (w.slotsMoved t d)).not.1 (by omega)
  rw [grace] at hstop
  rw [← Bool.not_eq_true, isDue_iff hd (by omega) ht]
  omega

/-- Whatever happened to a window that ends at zero or later, a slide to a timestamp that is not more
than the delay past the end of the view changes nothing. Any other moves the end of the view by the
slots that are wanted, or else by all that are left. In the first case the view ends at the first
boundary that is at most the delay behind the timestamp or, if the delay is not shorter than a slot,
at the last one that is not past the timestamp, and the window is due no more. -/
theorem viewEnd_slideTo {shape : WindowShape} {w : Window} (h : create shape = .ok w)
    (calls : List Call) {t d : Int} (hend : 0 ≤ (w.run calls).windowEnd) (hd : 0 ≤ d)
    (ht : Timestamp.InRange t) :
    let last := w.run calls
    let next := last.slideTo t d
    (t ≤ last.viewEnd + d → next = last) ∧
    (last.viewEnd + d < t →
      next.viewEnd = last.viewEnd + last.slotWidth * min (last.slotsWanted t d) last.slotsLeft ∧
      (last.slotsWanted t d ≤ last.slotsLeft →
        (d < last.slotWidth → IsLeast {b | last.IsBoundary b ∧ t - d ≤ b} next.viewEnd) ∧
        (last.slotWidth ≤ d → IsGreatest {b | last.IsBoundary b ∧ b ≤ t} next.viewEnd) ∧
        next.isDue t d = false)) := by
  intro last next
  have hr : Regular shape.kind last := (regular_create h).run calls
  have hb : last.Bounded := (regular_create h).bounded_run (bounded_create h) calls
  refine ⟨fun hle => ?_, fun hdue => ?_⟩
  · refine slideTo_of_not_due ?_
    rw [← Bool.not_eq_true, isDue_iff hd (hr.least_le_viewEnd hb) ht]
    omega
  · have hmoved := hr.slotsMoved_eq_min hb hend hd ht hdue
    have hview : next.viewEnd = _ := (hr.movedBy_slideTo t d).viewEnd_eq
    refine ⟨by rw [hview, hmoved, Int.mul_comm], fun hfits => ?_⟩
    rw [min_eq_left hfits] at hmoved
    rw [hview, hmoved]
    exact ⟨hr.isLeast_boundary, hr.isGreatest_boundary, hr.not_isDue_of_wanted hb hd ht hmoved⟩

/-- A slide to the end of time from a view that ends before zero. The distance does not fit the
timestamps and only the cap counts; a short slide and one with a long delay end at boundaries. -/
theorem viewEnd_slideTo_end_of_time :
    ∃ w, create ⟨.sum, .absolute, 5, 3, 2, -10⟩ = .ok w ∧
      let last := w.run [.add 1 (-12) false]
      last.windowEnd = 0 ∧ ¬ Timestamp.InRange (Timestamp.greatest - last.viewEnd) ∧
      (last.slideTo Timestamp.greatest 4).viewEnd = -10 + 5 * 1844674407370955161 ∧
      IsLeast {b | last.IsBoundary b ∧ 12 - 4 ≤ b} (last.slideTo 12 4).viewEnd ∧
      IsGreatest {b | last.IsBoundary b ∧ b ≤ 12} (last.slideTo 12 7).viewEnd := by
  have h : create ⟨.sum, .absolute, 5, 3, 2, -10⟩ = .ok _ := rfl
  have hslide {t d : Int} := @viewEnd_slideTo _ _ h [.add 1 (-12) false] t d (by decide +kernel)
  refine ⟨_, h, by decide +kernel, by decide +kernel, ?_, ?_, ?_⟩
  · refine ((hslide (by decide) (by decide)).2 (by decide +kernel)).1.trans ?_
    decide +kernel
  · exact (((hslide (by decide) (by decide)).2 (by decide +kernel)).2 (by decide +kernel)).1
      (by decide +kernel)
  · exact (((hslide (by decide) (by decide)).2 (by decide +kernel)).2 (by decide +kernel)).2.1
      (by decide +kernel)

end MetricAlarm.Window
