import MetricAlarm.Window.Basic

/-!
# Sliding

A window moves forward by whole slots: the oldest slot is emptied and becomes the newest. `rotate`
is one such step. A jump of more slots than the window has empties every slot, so `advance` skips
all but the last full turn of the ring. Main statement: `slideTo_of_not_due`.
-/

namespace MetricAlarm.Window

/-- Whether the time is more than the delay past the end of the view. -/
def isDue (w : Window) (timestamp minDelay : Int) : Bool :=
  timestamp > Timestamp.clamp (w.viewEnd + minDelay)

/-- Whole slots from the end of the view to the timestamp; a part of a slot that is longer than the
delay counts as a whole one. The end of the window stays a timestamp. -/
def slotsToAdvance (w : Window) (timestamp minDelay : Int) : Int :=
  let distance := Timestamp.clamp (timestamp - w.slotEnd)
  let whole := distance.tdiv w.slotWidth
  let wanted := if distance.tmod w.slotWidth > minDelay then whole + 1 else whole
  min wanted ((Timestamp.greatest - w.windowEnd).tdiv w.slotWidth)

/-- Empty the oldest slot and make it the newest. -/
def rotate (w : Window) : Window :=
  let base := (w.base + 1) % w.slots.size
  let newest := (base + (w.slots.size - 1)) % w.slots.size
  { w with
    base := base
    slots := w.slots.modify newest fun s => ⟨w.windowEnd, s.samples.reset⟩
    viewEnd := w.viewEnd + w.slotWidth
    slotEnd := w.slotEnd + w.slotWidth
    windowEnd := w.windowEnd + w.slotWidth }

def rotateBy (w : Window) : Nat → Window
  | 0 => w
  | n + 1 => w.rotate.rotateBy n

/-- Move the bounds without looking at the slots. -/
def skip (w : Window) (n : Nat) : Window :=
  { w with
    base := (w.base + n % w.slots.size) % w.slots.size
    viewEnd := w.viewEnd + n * w.slotWidth
    slotEnd := w.slotEnd + n * w.slotWidth
    windowEnd := w.windowEnd + n * w.slotWidth }

/-- Move by `n` slots. -/
def advance (w : Window) (n : Nat) : Window :=
  if n ≤ w.slots.size then w.rotateBy n
  else (w.skip (n - w.slots.size)).rotateBy w.slots.size

/-- Move towards a timestamp if the window is due. -/
def slideTo (w : Window) (timestamp minDelay : Int) : Window :=
  if w.isDue timestamp minDelay then w.advance (w.slotsToAdvance timestamp minDelay).toNat else w

/-- A move of a window: the bounds after it and the number of slots. -/
structure Move where
  viewEnd : Int
  windowEnd : Int
  slots : Int
  deriving DecidableEq, Repr

/-- The move that `slideTo` makes, if it makes one. -/
def moveTo? (w : Window) (timestamp minDelay : Int) : Option Move :=
  let n := w.slotsToAdvance timestamp minDelay
  if w.isDue timestamp minDelay ∧ 0 < n then
    let w := w.slideTo timestamp minDelay
    some ⟨w.viewEnd, w.windowEnd, n⟩
  else none

theorem slideTo_of_not_due {w : Window} {t d : Int} (h : w.isDue t d = false) :
    w.slideTo t d = w := by
  simp [slideTo, h]

end MetricAlarm.Window
