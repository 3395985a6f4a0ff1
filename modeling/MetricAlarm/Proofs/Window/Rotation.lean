import Mathlib.Logic.Function.Iterate
import MetricAlarm.Proofs.Window.History

/-!
# A jump is as many turns

A move of more slots than the window has skips all but the last turn of the ring. The slots that it
skips would only have been emptied again, so the window ends up as if it had turned slot by slot.
Main statement: `slideTo_eq_turns`.
-/

namespace MetricAlarm.Window

/-- The number of slots by which a slide moves the window. -/
def slotsMoved (w : Window) (timestamp minDelay : Int) : Nat :=
  if w.isDue timestamp minDelay then (w.slotsToAdvance timestamp minDelay).toNat else 0

theorem slideTo_eq_advance_slotsMoved (w : Window) (t d : Int) :
    w.slideTo t d = w.advance (w.slotsMoved t d) := by
  unfold slideTo slotsMoved
  split
  · rfl
  · rfl

theorem rotateBy_eq_iterate (w : Window) (n : Nat) : w.rotateBy n = rotate^[n] w := by
  induction n generalizing w with
  | zero => rfl
  | succ n ih =>
    rw [Function.iterate_succ_apply]
    exact ih w.rotate

/-- The slots are determined by their order of age and the place of the oldest. -/
theorem slots_eq_of_contents {w w' : Window} (hbase : w.base = w'.base)
    (h : w.contents = w'.contents) : w.slots = w'.slots := by
  unfold contents at h
  rw [hbase] at h
  exact Array.toList_inj.1 (List.rotate_injective _ h)

variable {kind : Statistic} {w : Window}

/-- Skipping loses nothing: both ways lead to the same bounds and to the same slots by age. -/
theorem Regular.advance_eq_rotateBy (h : Regular kind w) (n : Nat) :
    w.advance n = w.rotateBy n := by
  have hbase : (w.advance n).base = (w.rotateBy n).base := by
    rw [advance_eq_skip h.base_lt, rotateBy_eq_skip h.base_lt]
  have hcontents : (w.advance n).contents = (w.rotateBy n).contents := by
    rw [contents_advance h.size_pos h.kind_eq, contents_rotateBy h.size_pos h.kind_eq]
  rw [advance_eq_skip h.base_lt, slots_eq_of_contents hbase hcontents]
  exact (rotateBy_eq_skip h.base_lt n).symm

/-- Whatever happened to a window, a slide leaves it as turning it once for each slot of the slide
does, and so does a move of any length. -/
theorem slideTo_eq_turns {shape : WindowShape} {w : Window} (h : create shape = .ok w)
    (calls : List Call) :
    let last := w.run calls
    (∀ t d : Int, last.slideTo t d = rotate^[last.slotsMoved t d] last) ∧
      ∀ n : Nat, last.advance n = rotate^[n] last := by
  have hr := (regular_create h).run calls
  have hadvance : ∀ n : Nat, (w.run calls).advance n = rotate^[n] (w.run calls) := by
    intro n
    rw [hr.advance_eq_rotateBy, rotateBy_eq_iterate]
  refine ⟨?_, hadvance⟩
  intro t d
  rw [slideTo_eq_advance_slotsMoved, hadvance]

/-- Forty laps of five slots, with the ring turned by one beforehand. -/
theorem slideTo_eq_turns_laps :
    ∃ w, create ⟨.sum, .absolute, 5, 3, 2, 20⟩ = .ok w ∧
      (w.run [.add 1 7 false, .slide 25 0]).slotsMoved 1025 0 = 200 ∧
      (w.run [.add 1 7 false, .slide 25 0]).slideTo 1025 0 =
        rotate^[200] (w.run [.add 1 7 false, .slide 25 0]) := by
  have h : create ⟨.sum, .absolute, 5, 3, 2, 20⟩ = .ok _ := rfl
  have hturns := (slideTo_eq_turns h [.add 1 7 false, .slide 25 0]).1 1025 0
  refine ⟨_, h, by decide +kernel, hturns.trans ?_⟩
  congr 1

end MetricAlarm.Window
