import Mathlib.Data.Set.Function
import Mathlib.Order.Interval.Set.Defs
import MetricAlarm.Proofs.Window.Rotation

/-!
# The fields of a window agree

A window keeps its bounds, the place of its oldest slot and a start in every slot, although some of
them would determine the others. They agree in every state, and the bounds only move forward, by
whole slots and together, within the range of timestamps. Main statements: `Regular.bounded_run` and
`run_consistent`.
-/

namespace MetricAlarm.Window

/-- The fields of a window of a shape agree, and each slot carries the start that belongs to its
logical number. -/
structure Consistent (shape : WindowShape) (w : Window) : Prop where
  size_eq : w.slots.size = shape.viewSlots + shape.futureSlots
  base_lt : w.base < w.slots.size
  slotWidth_eq : w.slotWidth = shape.slotWidth
  length_eq : w.length = w.slots.size * shape.slotWidth
  slotEnd_eq : w.slotEnd = w.viewEnd
  windowEnd_eq : w.windowEnd = w.viewEnd + shape.futureSlots * shape.slotWidth
  stamp_eq : ∀ i < w.slots.size,
    w.slots[w.physical i]?.map Slot.start = some (w.start + i * shape.slotWidth)
  physical_bijOn : Set.BijOn w.physical (Set.Iio w.slots.size) (Set.Iio w.slots.size)
  logical_bijOn : Set.BijOn w.logical (Set.Iio w.slots.size) (Set.Iio w.slots.size)
  inverse : Set.InvOn w.logical w.physical (Set.Iio w.slots.size) (Set.Iio w.slots.size)

/-- The bounds have moved together, by `n` slots. -/
structure MovedBy (n : Nat) (w w' : Window) : Prop where
  start_eq : w'.start = w.start + n * w.slotWidth
  viewEnd_eq : w'.viewEnd = w.viewEnd + n * w.slotWidth
  windowEnd_eq : w'.windowEnd = w.windowEnd + n * w.slotWidth

/-- Whether the end of the window stays a timestamp when it moves by `n` slots. -/
def HasRoom (w : Window) (n : Nat) : Prop := w.windowEnd + n * w.slotWidth ≤ Timestamp.greatest

instance (w : Window) (n : Nat) : Decidable (w.HasRoom n) := inferInstanceAs (Decidable (_ ≤ _))

/-- The window lies in the range of timestamps. -/
structure Bounded (w : Window) : Prop where
  least_le : Timestamp.least ≤ w.start
  le_greatest : w.windowEnd ≤ Timestamp.greatest

/-- The window has nothing for a timestamp: no place, no read, and a sample only by force. -/
structure Refuses (w : Window) (t : Int) : Prop where
  placeOf?_eq : w.placeOf? t = none
  insert?_isSome : ∀ (v : Float) (force : Bool), (w.insert? v t force).isSome = force
  get_eq : w.get t = .error (.outOfWindow (w.resolution.adjust t))
  upTo_eq : w.upTo t = .error (.outOfWindow (w.resolution.adjust t))

variable {kind : Statistic} {w : Window}

/-! ## Places and logical numbers -/

theorem logical_lt (hn : 0 < w.slots.size) (p : Nat) : w.logical p < w.slots.size :=
  Nat.mod_lt _ hn

/-- The place undoes the logical number. -/
theorem physical_logical (hb : w.base < w.slots.size) {p : Nat} (hp : p < w.slots.size) :
    w.physical (w.logical p) = p := by
  rcases Nat.lt_or_ge p w.base with h | h
  · have hl : w.logical p = p + w.slots.size - w.base := Nat.mod_eq_of_lt (by omega)
    rw [hl, physical, show w.base + (p + w.slots.size - w.base) = p + w.slots.size by omega,
      Nat.add_mod_right, Nat.mod_eq_of_lt hp]
  · have hl : w.logical p = p - w.base := by
      rw [logical, show p + w.slots.size - w.base = p - w.base + w.slots.size by omega,
        Nat.add_mod_right, Nat.mod_eq_of_lt (by omega)]
    rw [hl, physical, show w.base + (p - w.base) = p by omega, Nat.mod_eq_of_lt hp]

theorem physical_invOn_logical (hb : w.base < w.slots.size) :
    Set.InvOn w.logical w.physical (Set.Iio w.slots.size) (Set.Iio w.slots.size) := by
  constructor
  · intro i hi
    exact logical_physical hb hi
  · intro p hp
    exact physical_logical hb hp

/-! ## Starts of the slots -/

/-- The slots show a record, so their starts follow one another. -/
theorem Shows.stamp {record : Int → List Sample} (hs : Shows kind record w) {i : Nat}
    (hi : i < w.slots.size) :
    w.slots[w.physical i]?.map Slot.start = some (w.start + i * w.slotWidth) := by
  rw [← getElem?_contents w hi, hs.contents_eq]
  simp [hi, slotOf]

theorem consistent_run {shape : WindowShape} (h : create shape = .ok w) (calls : List Call) :
    Consistent shape (w.run calls) := by
  have hr := (regular_create h).run calls
  have hs : Shows shape.kind (fun s => [] ++ history s w calls) (w.run calls) :=
    (shows_create h).run (regular_create h) calls
  obtain ⟨hn, hv, hw, -⟩ := frame_create h
  obtain ⟨hn', hv', hw', -⟩ := (regular_create h).frame_run calls
  have hsize := hn'.trans hn
  have hview := hv'.trans hv
  have hwidth := hw'.trans hw
  have hfuture : (w.run calls).slots.size - (w.run calls).viewSlots = shape.futureSlots := by omega
  have hinv := physical_invOn_logical hr.base_lt
  have hphysical : Set.MapsTo (w.run calls).physical (Set.Iio (w.run calls).slots.size)
      (Set.Iio (w.run calls).slots.size) := fun i _ => physical_lt hr.size_pos i
  have hlogical : Set.MapsTo (w.run calls).logical (Set.Iio (w.run calls).slots.size)
      (Set.Iio (w.run calls).slots.size) := fun p _ => logical_lt hr.size_pos p
  constructor
  case size_eq => exact hsize
  case base_lt => exact hr.base_lt
  case slotWidth_eq => exact hwidth
  case length_eq => rw [hr.length_eq, hwidth]
  case slotEnd_eq => exact hr.slotEnd_eq
  case windowEnd_eq => rw [hr.windowEnd_eq, hfuture, hwidth]
  case stamp_eq =>
    intro i hi
    rw [hs.stamp hi, hwidth]
  case physical_bijOn => exact hinv.bijOn hphysical hlogical
  case logical_bijOn => exact hinv.symm.bijOn hlogical hphysical
  case inverse => exact hinv

/-! ## Moves -/

theorem MovedBy.refl (w : Window) : MovedBy 0 w w := by
  constructor <;> simp

theorem MovedBy.trans {n n' : Nat} {w w' w'' : Window} (h : MovedBy n w w') (h' : MovedBy n' w' w'')
    (hw : w'.slotWidth = w.slotWidth) : MovedBy (n + n') w w'' := by
  obtain ⟨hs, hv, he⟩ := h
  obtain ⟨hs', hv', he'⟩ := h'
  rw [hw] at hs' hv' he'
  constructor <;> rw [Int.natCast_add, Int.add_mul] <;> omega

theorem Regular.movedBy_advance (h : Regular kind w) (n : Nat) : MovedBy n w (w.advance n) where
  start_eq := start_advance h.base_lt n
  viewEnd_eq := by rw [advance_eq_skip h.base_lt]; rfl
  windowEnd_eq := windowEnd_advance h.base_lt n

theorem Regular.movedBy_slideTo (h : Regular kind w) (t d : Int) :
    MovedBy (w.slotsMoved t d) w (w.slideTo t d) := by
  rw [slideTo_eq_advance_slotsMoved]
  exact h.movedBy_advance _

/-- A sample changes nothing but the slots. -/
theorem after_add_eq (w : Window) (v : Float) (t : Int) (force : Bool) :
    w.after (.add v t force) = { w with slots := (w.after (.add v t force)).slots } := by
  simp only [Window.after, insert?]
  split
  · rfl
  · cases w.placeOf? t <;> rfl

/-- A slide moves the bounds by as many slots as it has to; a sample does not move them. -/
theorem Regular.movedBy_after (h : Regular kind w) (c : Call) : ∃ n, MovedBy n w (w.after c) := by
  cases c with
  | slide t d => exact ⟨w.slotsMoved t d, h.movedBy_slideTo t d⟩
  | add v t force =>
    refine ⟨0, ?_⟩
    rw [after_add_eq]
    constructor <;> simp [start]

theorem Regular.movedBy_run (h : Regular kind w) (calls : List Call) :
    ∃ n, MovedBy n w (w.run calls) := by
  induction calls generalizing w with
  | nil => exact ⟨0, MovedBy.refl w⟩
  | cons c calls ih =>
    obtain ⟨n, hn⟩ := h.movedBy_after c
    obtain ⟨n', hn'⟩ := ih (h.after c)
    exact ⟨n + n', hn.trans hn' (h.frame_after c).2.2.1⟩

theorem Regular.start_le_run (h : Regular kind w) (calls : List Call) :
    w.start ≤ (w.run calls).start := by
  obtain ⟨n, hn⟩ := h.movedBy_run calls
  have hw := h.width_pos
  have : 0 ≤ (n : Int) * w.slotWidth := Int.mul_nonneg (by omega) (by omega)
  rw [hn.start_eq]
  omega

/-! ## The bounds are timestamps -/

theorem Regular.hasRoom_iff (h : Regular kind w) (hle : w.windowEnd ≤ Timestamp.greatest) (n : Nat) :
    w.HasRoom n ↔ (n : Int) ≤ (Timestamp.greatest - w.windowEnd).tdiv w.slotWidth := by
  rw [Int.tdiv_eq_ediv_of_nonneg (by omega), Int.le_ediv_iff_mul_le h.width_pos, HasRoom]
  omega

theorem Regular.hasRoom_slotsMoved (h : Regular kind w) (hle : w.windowEnd ≤ Timestamp.greatest)
    (t d : Int) : w.HasRoom (w.slotsMoved t d) := by
  have hcap : 0 ≤ (Timestamp.greatest - w.windowEnd).tdiv w.slotWidth :=
    Int.tdiv_nonneg (by omega) (Int.le_of_lt h.width_pos)
  rw [h.hasRoom_iff hle]
  unfold slotsMoved slotsToAdvance
  dsimp only
  split
  · omega
  · exact hcap

theorem Regular.bounded_advance (h : Regular kind w) (hb : w.Bounded) {n : Nat} (hn : w.HasRoom n) :
    (w.advance n).Bounded where
  least_le := by
    have hmoved : 0 ≤ (n : Int) * w.slotWidth :=
      Int.mul_nonneg (by omega) (Int.le_of_lt h.width_pos)
    have hleast := hb.least_le
    rw [start_advance h.base_lt]
    omega
  le_greatest := by
    rw [windowEnd_advance h.base_lt]
    exact hn

theorem Regular.bounded_after (h : Regular kind w) (hb : w.Bounded) (c : Call) :
    (w.after c).Bounded := by
  cases c with
  | slide t d =>
    rw [Window.after, slideTo_eq_advance_slotsMoved]
    exact h.bounded_advance hb (h.hasRoom_slotsMoved hb.le_greatest t d)
  | add v t force =>
    rw [after_add_eq]
    exact ⟨hb.least_le, hb.le_greatest⟩

theorem Regular.bounded_run (h : Regular kind w) (hb : w.Bounded) (calls : List Call) :
    (w.run calls).Bounded := by
  induction calls generalizing w with
  | nil => exact hb
  | cons c calls ih => exact ih (h.after c) (h.bounded_after hb c)

theorem bounded_create {shape : WindowShape} (h : create shape = .ok w) : w.Bounded := by
  obtain ⟨-, e, l, hpasses, rfl⟩ := accepted_of_create h
  obtain ⟨-, -, hend, hstart⟩ := span?_eq_some hpasses.span_eq
  exact ⟨hstart.1, hend.2⟩

/-! ## When a window is due -/

theorem Regular.viewEnd_eq_start (h : Regular kind w) :
    w.viewEnd = w.start + w.viewSlots * w.slotWidth := by
  have hle := h.view_le
  have hend := h.windowEnd_eq
  rw [h.windowEnd_eq_start, Int.ofNat_sub hle, Int.sub_mul] at hend
  omega

theorem Regular.least_le_viewEnd (h : Regular kind w) (hb : w.Bounded) :
    Timestamp.least ≤ w.viewEnd := by
  have hview : 0 ≤ (w.viewSlots : Int) * w.slotWidth :=
    Int.mul_nonneg (by omega) (Int.le_of_lt h.width_pos)
  have hleast := hb.least_le
  rw [h.viewEnd_eq_start]
  omega

theorem least_le_viewEnd_run {shape : WindowShape} (h : create shape = .ok w)
    (calls : List Call) : Timestamp.least ≤ (w.run calls).viewEnd :=
  ((regular_create h).run calls).least_le_viewEnd
    ((regular_create h).bounded_run (bounded_create h) calls)

/-- Clamping the end of the delay does not matter: no timestamp lies behind the greatest one. -/
theorem isDue_iff {t d : Int} (hd : 0 ≤ d) (hv : Timestamp.least ≤ w.viewEnd)
    (ht : Timestamp.InRange t) : w.isDue t d = true ↔ w.viewEnd + d < t := by
  have hgreatest := ht.2
  unfold isDue Timestamp.clamp
  rw [decide_eq_true_iff]
  omega

/-! ## Timestamps that the window has left behind -/

theorem refuses_of_not_covers {t : Int} (h : ¬ w.Covers t) : w.Refuses t := by
  have hplace : w.placeOf? t = none := by
    rw [← Option.not_isSome_iff_eq_none, placeOf?_isSome]
    exact h
  have hfind : w.find t = .error (.outOfWindow (w.resolution.adjust t)) := by
    rw [find, hplace]
  constructor
  case placeOf?_eq => exact hplace
  case insert?_isSome =>
    intro v force
    rw [Bool.eq_iff_iff, Window.insert?_isSome]
    simp [h]
  case get_eq =>
    rw [get, hfind]
    rfl
  case upTo_eq =>
    rw [upTo, hfind]
    rfl

/-- What lies in front of the window stays there. -/
theorem Regular.refuses_run (h : Regular kind w) {t : Int} (ht : w.resolution.adjust t < w.start)
    (calls : List Call) : (w.run calls).Refuses t := by
  apply refuses_of_not_covers
  rintro ⟨hl, -⟩
  have hle := h.start_le_run calls
  rw [(h.frame_run calls).2.2.2] at hl
  omega

/-- In every state that a window reaches its fields agree; every call moves the bounds together by a
number of slots; and a timestamp that has fallen behind the window is refused from then on. -/
theorem run_consistent {shape : WindowShape} {w : Window} (h : create shape = .ok w)
    (calls : List Call) :
    let last := w.run calls
    Consistent shape last ∧
    (∀ c : Call, ∃ n, MovedBy n last (last.after c)) ∧
    (∀ t : Int, last.resolution.adjust t < last.start →
      ∀ later : List Call, (last.run later).Refuses t) := by
  have hr := (regular_create h).run calls
  refine ⟨consistent_run h calls, hr.movedBy_after, ?_⟩
  intro t ht later
  exact hr.refuses_run ht later

/-- A window that was turned and then jumped far: the sample at the timestamp 7 is lost. -/
theorem run_consistent_far :
    ∃ w, create ⟨.sum, .absolute, 5, 3, 2, 20⟩ = .ok w ∧
      let last := w.run [.add 1 7 false, .slide 25 0, .slide 1027 1]
      last.base = 2 ∧ last.start = 1015 ∧ last.physical 4 = 1 ∧
      Consistent ⟨.sum, .absolute, 5, 3, 2, 20⟩ last ∧
      (last.run [.add 2 1016 false, .slide 2000 0]).Refuses 7 := by
  have h : create ⟨.sum, .absolute, 5, 3, 2, 20⟩ = .ok _ := rfl
  have hall := run_consistent h [.add 1 7 false, .slide 25 0, .slide 1027 1]
  refine ⟨_, h, by decide +kernel, by decide +kernel, by decide +kernel, hall.1, ?_⟩
  exact hall.2.2 7 (by decide +kernel) _

end MetricAlarm.Window
