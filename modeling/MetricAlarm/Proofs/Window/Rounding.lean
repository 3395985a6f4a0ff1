import MetricAlarm.Alarm.SubAlarm
import MetricAlarm.Proofs.Window.Grid

/-!
# Where rounding is not seen

Samples and reads look up rounded timestamps, while slides and the newest value take timestamps as
they are given. When the width of the slots is a multiple of the unit, a window answers as if it
never rounded at all. `Window.absolute` is that other window; it runs along, since a lookup finds
the same slot in both. Main statements: `Aligned.placeOf?_absolute`, `Aligned.run_absolute`, and
`ignoresRounding`.
-/

namespace MetricAlarm

/-- The shape of a window that takes timestamps as given; only the end of the view is rounded. -/
def WindowShape.absolute (s : WindowShape) : WindowShape :=
  { s with resolution := .absolute, viewEnd := s.resolution.adjust s.viewEnd }

namespace Window

/-- The same window, from now on with timestamps as given. -/
def absolute (w : Window) : Window := { w with resolution := .absolute }

/-- Whether the samples of a run are taken, in the order of the calls. -/
def accepted (w : Window) : List Call → List Bool
  | [] => []
  | .add v t force :: calls =>
    (w.insert? v t force).isSome :: (w.after (.add v t force)).accepted calls
  | .slide t d :: calls => (w.after (.slide t d)).accepted calls

/-- Two windows answer alike. A read that fails in one fails in the other as well; the message names
the timestamp as each of them rounds it. -/
structure Agrees (w w' : Window) : Prop where
  placeOf?_eq : ∀ t, w'.placeOf? t = w.placeOf? t
  isSome_insert? : ∀ v t force, (w'.insert? v t force).isSome = (w.insert? v t force).isSome
  isDue_eq : ∀ t d, w'.isDue t d = w.isDue t d
  get_eq : ∀ t, (w'.get t).toOption = (w.get t).toOption
  upTo_eq : ∀ t, (w'.upTo t).toOption = (w.upTo t).toOption
  viewValues_eq : w'.viewValues = w.viewValues
  values_eq : w'.values = w.values
  viewTimes_eq : w'.viewTimes = w.viewTimes
  size_eq : w'.slots.size = w.slots.size
  slotWidth_eq : w'.slotWidth = w.slotWidth
  start_eq : w'.start = w.start
  viewEnd_eq : w'.viewEnd = w.viewEnd
  windowEnd_eq : w'.windowEnd = w.windowEnd

/-- Windows of the shape can be made with and without rounding alike, take the same samples in every
run, and answer alike after it. -/
structure IgnoresRounding (shape : WindowShape) : Prop where
  isOk_create : (create shape.absolute).isOk = (create shape).isOk
  accepted_eq : ∀ {w w' : Window}, create shape = .ok w → create shape.absolute = .ok w' →
    ∀ calls, w'.accepted calls = w.accepted calls
  agrees_run : ∀ {w w' : Window}, create shape = .ok w → create shape.absolute = .ok w' →
    ∀ calls, Agrees (w.run calls) (w'.run calls)

theorem create_absolute (shape : WindowShape) :
    create shape.absolute = (create shape).map absolute := by
  obtain ⟨kind, resolution, slotWidth, viewSlots, futureSlots, viewEnd⟩ := shape
  have hend : Resolution.absolute.adjust (resolution.adjust viewEnd) = resolution.adjust viewEnd :=
    rfl
  simp only [create, WindowShape.absolute, hend, apply_ite (Except.map absolute)]
  cases span? (resolution.adjust viewEnd) slotWidth futureSlots (viewSlots + futureSlots) with
  | none => rfl
  | some bounds =>
    dsimp only
    rw [apply_ite (Except.map absolute)]
    rfl

/-! ## Slides do not look at the resolution -/

theorem rotateBy_absolute (w : Window) (n : Nat) :
    w.absolute.rotateBy n = (w.rotateBy n).absolute := by
  induction n generalizing w with
  | zero => rfl
  | succ n ih => exact ih w.rotate

theorem advance_absolute (w : Window) (n : Nat) : w.absolute.advance n = (w.advance n).absolute := by
  have hsize : w.absolute.slots.size = w.slots.size := rfl
  unfold advance
  rw [hsize]
  split
  · exact w.rotateBy_absolute n
  · exact (w.skip _).rotateBy_absolute _

theorem slideTo_absolute (w : Window) (t d : Int) :
    w.absolute.slideTo t d = (w.slideTo t d).absolute := by
  have hmoved : w.absolute.slotsMoved t d = w.slotsMoved t d := rfl
  rw [slideTo_eq_advance_slotsMoved, hmoved, advance_absolute, ← slideTo_eq_advance_slotsMoved]

/-! ## Lookups -/

/-- A window whose slots start at multiples of the unit. -/
structure Aligned (kind : Statistic) (w : Window) : Prop where
  regular : Regular kind w
  bounded : w.Bounded
  onGrid : OnGrid w.resolution.unit w

variable {kind : Statistic} {w : Window}

theorem Aligned.after (h : Aligned kind w) (c : Call) : Aligned kind (w.after c) := by
  have hgrid := h.onGrid.run h.regular [c]
  refine ⟨h.regular.after c, h.regular.bounded_after h.bounded c, ?_⟩
  rw [(h.regular.frame_after c).2.2.2]
  exact hgrid

/-- Rounding takes no timestamp past the start of a slot or the end of the last one. -/
theorem Aligned.le_adjust_iff (h : Aligned kind w) {i : Nat} (hi : i ≤ w.slots.size) (t : Int) :
    w.start + i * w.slotWidth ≤ w.resolution.adjust t ↔ w.start + i * w.slotWidth ≤ t :=
  w.resolution.le_adjust_iff (h.onGrid.slot i) (h.regular.inRange_slot h.bounded hi) t

/-- The window covers a rounded timestamp exactly when the timestamp itself lies in it. -/
theorem Aligned.covers_iff (h : Aligned kind w) (t : Int) :
    w.Covers t ↔ w.start ≤ t ∧ t < w.windowEnd := by
  have hstart := h.le_adjust_iff (Nat.zero_le _) t
  have hend := h.le_adjust_iff (Nat.le_refl _) t
  rw [← h.regular.windowEnd_eq_start] at hend
  rw [Int.cast_ofNat_Int, Int.zero_mul, Int.add_zero] at hstart
  rw [Covers, hstart, ← Int.not_le, hend, Int.not_le]

theorem Aligned.meets_iff (h : Aligned kind w) {i : Nat} (hi : i < w.slots.size) (t : Int) :
    w.Meets (w.start + i * w.slotWidth) t ↔
      w.start + i * w.slotWidth ≤ t ∧ t < w.start + i * w.slotWidth + w.slotWidth := by
  have hend := h.le_adjust_iff (show i + 1 ≤ w.slots.size from hi) t
  rw [Int.natCast_add_one, Int.add_mul, Int.one_mul, ← Int.add_assoc] at hend
  rw [Meets, h.le_adjust_iff (Nat.le_of_lt hi) t, ← Int.not_le, hend, Int.not_le]

theorem Regular.absolute (h : Regular kind w) : Regular kind w.absolute :=
  ⟨h.width_pos, h.base_lt, h.view_pos, h.view_le, h.length_eq, h.slotEnd_eq, h.windowEnd_eq, h.kind_eq⟩

/-- Both windows find the same slot for every timestamp. -/
theorem Aligned.placeOf?_absolute (h : Aligned kind w) (t : Int) :
    w.absolute.placeOf? t = w.placeOf? t := by
  by_cases hc : w.Covers t
  · obtain ⟨i, hi, hm, hp⟩ := h.regular.exists_slot hc
    rw [hp]
    exact h.regular.absolute.placeOf?_eq hi ((h.meets_iff hi t).1 hm)
  · have hc' : ¬ w.absolute.Covers t := (h.covers_iff t).not.1 hc
    rw [(refuses_of_not_covers hc).placeOf?_eq, (refuses_of_not_covers hc').placeOf?_eq]

theorem Aligned.insert?_absolute (h : Aligned kind w) (v : Float) (t : Int) (force : Bool) :
    w.absolute.insert? v t force = (w.insert? v t force).map absolute := by
  unfold insert?
  rw [h.placeOf?_absolute]
  split
  · rfl
  · cases w.placeOf? t <;> rfl

theorem Aligned.after_absolute (h : Aligned kind w) (c : Call) :
    w.absolute.after c = (w.after c).absolute := by
  cases c with
  | slide t d => exact w.slideTo_absolute t d
  | add v t force =>
    simp only [Window.after, h.insert?_absolute]
    cases w.insert? v t force <;> rfl

theorem Aligned.run_absolute (h : Aligned kind w) (calls : List Call) :
    w.absolute.run calls = (w.run calls).absolute ∧ Aligned kind (w.run calls) := by
  induction calls generalizing w with
  | nil => exact ⟨rfl, h⟩
  | cons c calls ih =>
    have hrun := ih (h.after c)
    rwa [← h.after_absolute] at hrun

theorem Aligned.accepted_absolute (h : Aligned kind w) (calls : List Call) :
    w.absolute.accepted calls = w.accepted calls := by
  induction calls generalizing w with
  | nil => rfl
  | cons c calls ih =>
    have hlater := ih (h.after c)
    rw [← h.after_absolute] at hlater
    cases c with
    | slide t d => exact hlater
    | add v t force =>
      rw [accepted, accepted, hlater, h.insert?_absolute, Option.isSome_map]

/-! ## Answers -/

theorem Aligned.agrees_absolute (h : Aligned kind w) : Agrees w w.absolute where
  placeOf?_eq := h.placeOf?_absolute
  isSome_insert? v t force := by rw [h.insert?_absolute, Option.isSome_map]
  isDue_eq _ _ := rfl
  get_eq t := by
    simp only [get, find, h.placeOf?_absolute]
    cases w.placeOf? t <;> rfl
  upTo_eq t := by
    simp only [upTo, find, h.placeOf?_absolute]
    cases w.placeOf? t <;> rfl
  viewValues_eq := rfl
  values_eq := rfl
  viewTimes_eq := rfl
  size_eq := rfl
  slotWidth_eq := rfl
  start_eq := rfl
  viewEnd_eq := rfl
  windowEnd_eq := rfl

theorem aligned_create {shape : WindowShape} (h : create shape = .ok w)
    (hrange : Timestamp.InRange shape.viewEnd) (hwidth : shape.resolution.unit ∣ shape.slotWidth) :
    Aligned shape.kind w := by
  refine ⟨regular_create h, bounded_create h, ?_⟩
  rw [(frame_create h).2.2.2]
  exact onGrid_create h hrange (Int.dvd_refl _) hwidth

theorem ignoresRounding_of_dvd {shape : WindowShape} (hrange : Timestamp.InRange shape.viewEnd)
    (hwidth : shape.resolution.unit ∣ shape.slotWidth) : IgnoresRounding shape := by
  have hother {w w' : Window} (h : create shape = .ok w) (h' : create shape.absolute = .ok w') :
      w' = w.absolute := by
    rw [create_absolute, h] at h'
    exact (Except.ok.inj h').symm
  constructor
  case isOk_create =>
    rw [create_absolute]
    cases create shape <;> rfl
  case accepted_eq =>
    intro w w' h h' calls
    rw [hother h h']
    exact (aligned_create h hrange hwidth).accepted_absolute calls
  case agrees_run =>
    intro w w' h h' calls
    obtain ⟨hrun, haligned⟩ := (aligned_create h hrange hwidth).run_absolute calls
    rw [hother h h', hrun]
    exact haligned.agrees_absolute

/-- A window whose slots are a multiple of the unit wide answers, in every run, as the one that
takes timestamps as given. The windows of sub-alarms under the resolution of seconds are such
windows. -/
theorem ignoresRounding :
    (∀ shape : WindowShape, Timestamp.InRange shape.viewEnd →
      shape.resolution.unit ∣ shape.slotWidth → IgnoresRounding shape) ∧
    (∀ (c : Condition) (s : Settings) (viewEnd : Int), Timestamp.InRange viewEnd →
      s.resolution = .seconds → IgnoresRounding (SubAlarm.shape c s viewEnd)) := by
  constructor
  · intro shape hrange hwidth
    exact ignoresRounding_of_dvd hrange hwidth
  · intro c s viewEnd hrange hseconds
    refine ignoresRounding_of_dvd hrange ?_
    simp only [SubAlarm.shape, hseconds]
    exact Int.dvd_mul_left _ _

/-- The first minutes there are: what lies in front of them is rounded to the earliest timestamp,
or is taken as given, and is refused either way. -/
theorem ignoresRounding_first_minutes :
    let shape : WindowShape := ⟨.last, .minutes, 60000, 2, 1, -9223372036854599999⟩
    let w : Window := ⟨.minutes, 60000, 2, 180000, freshSlots .last (-9223372036854720000) 60000 3,
      0, -9223372036854600000, -9223372036854600000, -9223372036854540000⟩
    let calls : List Window.Call := [.add 1 Timestamp.least false,
      .add 2 (-9223372036854720001) false, .add 3 (-9223372036854720000) false,
      .add 4 (-9223372036854660001) false, .slide (-9223372036854540001) 0]
    create shape = .ok w ∧ create shape.absolute = .ok w.absolute ∧
      w.accepted calls = [false, false, true, true] ∧
      w.absolute.accepted calls = [false, false, true, true] ∧
      (w.run calls).start = -9223372036854660000 ∧
      Agrees (w.run calls) (w.absolute.run calls) ∧
      IgnoresRounding (SubAlarm.shape ⟨.min, .named "cpu", .lt, 5, 7, 3, false⟩
        ⟨2, 10, .seconds, "info"⟩ (-1)) := by
  intro shape w calls
  have h : create shape = .ok w := by decide +kernel
  have h' : create shape.absolute = .ok w.absolute := by decide +kernel
  have htaken : w.accepted calls = [false, false, true, true] := by decide +kernel
  have hall := ignoresRounding.1 shape (by decide) (by decide)
  refine ⟨h, h', htaken, (hall.accepted_eq h h' calls).trans htaken, by decide +kernel,
    hall.agrees_run h h' calls, ?_⟩
  exact ignoresRounding.2 _ _ _ (by decide) rfl

end Window

end MetricAlarm
