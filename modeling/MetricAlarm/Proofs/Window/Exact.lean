import MetricAlarm.Proofs.Window.Distance
import MetricAlarm.Proofs.Window.Fits
import MetricAlarm.Proofs.Window.Grid

/-!
# No step leaves the range

In a window that lies in the range of timestamps every operation of `Checked` has the result of the
plain one: sixty-four bits are enough for every step on the way. Samples and slides keep the window
in the range, so this holds after every run of a window that could be made. Main statements:
`Contained.exact`, `Contained.run_exact`, and `create_run_exact`.
-/

namespace MetricAlarm

theorem Timestamp.inRange_clamp (t : Int) : InRange (clamp t) := by
  unfold InRange clamp least greatest
  omega

/-- A quotient that leaves a part can be rounded up. -/
theorem Timestamp.inRange_tdiv_add_one {a b : Int} (hb : 0 < b) (ha : InRange a)
    (hpart : 0 < a.tmod b) : InRange (a.tdiv b + 1) := by
  obtain ⟨-, hu⟩ := ha
  have hleast : least ≤ 0 := by decide
  have hnonneg : 0 ≤ a := by
    by_contra hneg
    have hneg := Int.tmod_nonneg b (show 0 ≤ -a by omega)
    rw [Int.neg_tmod] at hneg
    omega
  have hsplit := Int.mul_tdiv_add_tmod a b
  have hquotient := Int.tdiv_nonneg hnonneg (Int.le_of_lt hb)
  have hle : a.tdiv b ≤ b * a.tdiv b := le_mul_of_one_le_left hquotient hb
  exact ⟨by omega, by omega⟩

namespace Window

/-! ## Windows in the range -/

/-- The bounds of a window are timestamps, and so is the time that its slots cover. -/
structure Contained (kind : Statistic) (w : Window) : Prop where
  regular : Regular kind w
  bounded : w.Bounded
  length_le : w.length ≤ Timestamp.greatest

variable {kind : Statistic} {w : Window}

theorem contained_create {s : WindowShape} (h : create s = .ok w) : Contained s.kind w := by
  refine ⟨regular_create h, bounded_create h, ?_⟩
  obtain ⟨hfits, -⟩ := (exists_create_iff s).1 ⟨w, h⟩
  obtain ⟨-, -, -, rfl⟩ := create_eq_ok h
  have hlength := hfits.length_le
  rwa [← Int.natCast_add] at hlength

theorem Contained.after (h : Contained kind w) (c : Call) : Contained kind (w.after c) := by
  refine ⟨h.regular.after c, h.regular.bounded_after h.bounded c, ?_⟩
  obtain ⟨hsize, -, hwidth, -⟩ := h.regular.frame_after c
  rw [(h.regular.after c).length_eq, hsize, hwidth, ← h.regular.length_eq]
  exact h.length_le

theorem Contained.size_le (h : Contained kind w) : (w.slots.size : Int) ≤ Timestamp.greatest := by
  have hle : (w.slots.size : Int) ≤ w.slots.size * w.slotWidth :=
    le_mul_of_one_le_right (by omega) h.regular.width_pos
  have hlength := h.length_le
  rw [h.regular.length_eq] at hlength
  omega

theorem Contained.start_exact (h : Contained kind w) : Checked.start w = some w.start := by
  have hrange := h.regular.inRange_slot h.bounded (Nat.zero_le _)
  rw [Int.cast_ofNat_Int, Int.zero_mul, Int.add_zero] at hrange
  exact Timestamp.sub?_eq hrange

/-! ### Places -/

/-- A place in a ring is found without knowing where the ring lies. -/
theorem physical_exact (hb : w.base < w.slots.size) (hsize : (w.slots.size : Int) ≤ Timestamp.greatest)
    {i : Nat} (hi : i < w.slots.size) : Checked.physical w i = some (w.physical i) := by
  have hsum : Count.add? w.base i = some (w.base + i) := Count.add?_eq (by omega) (by omega)
  rw [Checked.physical, if_pos hi, hsum]
  exact Count.rem?_eq (by omega)

theorem Contained.physical_exact (h : Contained kind w) {i : Nat} (hi : i < w.slots.size) :
    Checked.physical w i = some (w.physical i) :=
  Window.physical_exact h.regular.base_lt h.size_le hi

theorem Contained.logical_exact (h : Contained kind w) {p : Nat} (hp : p < w.slots.size) :
    Checked.logical w p = some (w.logical p) := by
  have hb := h.regular.base_lt
  have hsize := h.size_le
  have hsum : Count.add? p w.slots.size = some (p + w.slots.size) :=
    Count.add?_eq (by omega) (by omega)
  have hdifference : Count.sub? (p + w.slots.size) w.base = some (p + w.slots.size - w.base) :=
    Count.sub?_eq (by omega)
  simp only [Checked.logical, if_pos hp, hsum, hdifference, Option.bind_eq_bind, Option.bind_some]
  exact Count.rem?_eq h.regular.size_pos

theorem Contained.placeOf_exact (h : Contained kind w) {t : Int} (ht : Timestamp.InRange t) :
    Checked.placeOf w t = some (w.placeOf? t) := by
  have hw := h.regular.width_pos
  have hlength := h.length_le
  have hend := h.regular.windowEnd_eq_start
  rw [h.regular.length_eq] at hlength
  simp only [Checked.placeOf, placeOf?, Resolution.adjust?_eq _ ht, h.start_exact,
    Option.bind_eq_bind, Option.bind_some]
  split
  · rfl
  · have hnonneg : 0 ≤ w.resolution.adjust t - w.start := by omega
    have hlt : w.resolution.adjust t - w.start < w.slots.size * w.slotWidth := by omega
    have hrange : Timestamp.InRange (w.resolution.adjust t - w.start) :=
      ⟨Int.le_trans (by decide) hnonneg, by omega⟩
    rw [Timestamp.sub?_eq hrange]
    generalize w.resolution.adjust t - w.start = offset at hnonneg hlt hrange
    have hnumber : 0 ≤ offset / w.slotWidth := Int.ediv_nonneg hnonneg (Int.le_of_lt hw)
    have hle : offset / w.slotWidth ≤ offset := Int.ediv_le_self _ hnonneg
    have hi : offset / w.slotWidth < w.slots.size := Int.ediv_lt_of_lt_mul hw hlt
    have hcount : Count.ofTimestamp? (offset / w.slotWidth) = some (offset / w.slotWidth).toNat :=
      Count.ofTimestamp?_eq hnumber (Int.le_trans hle hrange.2)
    have hplace := h.physical_exact (i := (offset / w.slotWidth).toNat) (by omega)
    simp only [Timestamp.div?_eq hw hrange, Int.tdiv_eq_ediv_of_nonneg hnonneg, hcount, hplace,
      Option.bind_some]

theorem Contained.place_lt (h : Contained kind w) {t : Int} {p : Nat} (hp : w.placeOf? t = some p) :
    p < w.slots.size := by
  unfold placeOf? at hp
  dsimp only at hp
  split at hp
  · cases hp
  · cases hp
    exact physical_lt h.regular.size_pos _

/-! ### Samples and values -/

theorem Contained.insert_exact (h : Contained kind w) (v : Float) {t : Int} (force : Bool)
    (ht : Timestamp.InRange t) : Checked.insert w v t force = some (w.insert? v t force) := by
  unfold Checked.insert insert?
  cases force with
  | true =>
    have hlt := physical_lt h.regular.size_pos 0
    simp only [if_true, h.physical_exact h.regular.size_pos, Checked.addAt, if_pos hlt,
      Option.bind_eq_bind, Option.bind_some]
  | false =>
    simp only [Bool.false_eq_true, if_false, h.placeOf_exact ht, Option.bind_eq_bind,
      Option.bind_some]
    cases hp : w.placeOf? t with
    | none => rfl
    | some p =>
      simp only [Checked.addAt, if_pos (h.place_lt hp), Option.bind_some, Option.map_some]

theorem valueAt_exact {p : Nat} (hp : p < w.slots.size) :
    Checked.valueAt w p = some (w.valueAt p) := by
  simp [Checked.valueAt, valueAt, hp]

theorem Contained.oldest_exact (h : Contained kind w) {n : Nat} (hn : n ≤ w.slots.size) :
    Checked.oldest w n = some (w.oldest n) := by
  refine mapM_eq_some_map fun i hi => ?_
  have hlt : i < w.slots.size := Nat.lt_of_lt_of_le (List.mem_range.1 hi) hn
  rw [h.physical_exact hlt]
  exact valueAt_exact (physical_lt h.regular.size_pos i)

theorem Contained.find_exact (h : Contained kind w) {t : Int} (ht : Timestamp.InRange t) :
    Checked.find w t = some (w.find t) := by
  unfold Checked.find find
  rw [h.placeOf_exact ht, Resolution.adjust?_eq _ ht]
  cases w.placeOf? t <;> rfl

theorem Contained.lt_of_find (h : Contained kind w) {t : Int} {p : Nat} (hp : w.find t = .ok p) :
    p < w.slots.size := by
  unfold find at hp
  split at hp
  · next hplace =>
    cases hp
    exact h.place_lt hplace
  · cases hp

theorem Contained.get_exact (h : Contained kind w) {t : Int} (ht : Timestamp.InRange t) :
    Checked.get w t = some (w.get t) := by
  unfold Checked.get get
  rw [h.find_exact ht]
  cases hp : w.find t with
  | error fault => rfl
  | ok p =>
    have hvalue := valueAt_exact (h.lt_of_find hp)
    simp only [Option.bind_eq_bind, Option.bind_some, hvalue, Except.map]

theorem Contained.upTo_exact (h : Contained kind w) {t : Int} (ht : Timestamp.InRange t) :
    Checked.upTo w t = some (w.upTo t) := by
  unfold Checked.upTo upTo
  rw [h.find_exact ht]
  cases hp : w.find t with
  | error fault => rfl
  | ok p =>
    have hsize := h.size_le
    have hlt := logical_lt h.regular.size_pos p
    have hcount : Count.add? (w.logical p) 1 = some (w.logical p + 1) :=
      Count.add?_eq (by omega) (by decide)
    simp only [Option.bind_eq_bind, Option.bind_some, h.logical_exact (h.lt_of_find hp), hcount,
      h.oldest_exact (Nat.succ_le_of_lt hlt), Except.map]

theorem Contained.viewTimes_exact (h : Contained kind w) :
    Checked.viewTimes w = some w.viewTimes := by
  have hw := h.regular.width_pos
  have hlength := h.length_le
  have hview := h.regular.view_pos
  have hviewLe := h.regular.view_le
  obtain ⟨n, hn⟩ : ∃ n, w.viewSlots = n + 1 := ⟨w.viewSlots - 1, by omega⟩
  have hle : n + 1 ≤ w.slots.size := by omega
  have hfirst := h.regular.inRange_slot h.bounded (show 1 ≤ w.slots.size by omega)
  have hlast := (h.regular.inRange_slot h.bounded hle).2
  have hspan : (n : Int) * w.slotWidth ≤ w.slots.size * w.slotWidth :=
    Int.mul_le_mul_of_nonneg_right (by omega) (by omega)
  rw [Int.natCast_add, Int.cast_ofNat_Int, Int.add_mul, Int.one_mul] at hlast
  rw [Int.cast_ofNat_Int, Int.one_mul] at hfirst
  rw [h.regular.length_eq] at hlength
  have hstarts := slotStarts_eq w.viewSlots hw (by omega) (Int.le_trans hspan hlength)
    hfirst (by omega)
  simp only [Checked.viewTimes, h.start_exact, Timestamp.add?_eq hfirst, hstarts,
    Option.bind_eq_bind, Option.bind_some, viewTimes]

theorem Contained.slotTexts_exact (h : Contained kind w) (first n : Nat)
    (hn : first + n ≤ w.slots.size) :
    Checked.slotTexts w first n = some (w.slotTexts first n) := by
  refine mapM_eq_some_map fun i hi => ?_
  have hlt := List.mem_range.1 hi
  have hplace := physical_lt h.regular.size_pos (first + i)
  rw [h.physical_exact (by omega)]
  simp [slotText, hplace]

theorem Contained.text_exact (h : Contained kind w) : Checked.text w = some w.text := by
  have hview := h.regular.view_le
  have hhidden : w.hiddenSlots ≤ w.viewSlots := Nat.sub_le _ _
  have hviewTexts := h.slotTexts_exact w.hiddenSlots (w.viewSlots - w.hiddenSlots) (by omega)
  have hfutureTexts := h.slotTexts_exact w.viewSlots (w.slots.size - w.viewSlots) (by omega)
  simp only [Checked.text, hviewTexts, hfutureTexts, Option.bind_eq_bind, Option.bind_some, text]

/-! ### Slides -/

theorem Contained.slotsToAdvance_exact (h : Contained kind w) {t d : Int} (hd : 0 ≤ d)
    (hend : 0 ≤ w.windowEnd) : Checked.slotsToAdvance w t d = some (w.slotsToAdvance t d) := by
  have hw := h.regular.width_pos
  have hle := h.bounded.le_greatest
  have hdistance := Timestamp.inRange_clamp (t - w.slotEnd)
  have hroom : Timestamp.InRange (Timestamp.greatest - w.windowEnd) :=
    ⟨Int.le_trans (show Timestamp.least ≤ 0 by decide) (by omega), by omega⟩
  simp only [Checked.slotsToAdvance, slotsToAdvance, Timestamp.div?_eq hw hdistance,
    Timestamp.rem?_eq hw hdistance, Timestamp.sub?_eq hroom, Timestamp.div?_eq hw hroom,
    Option.bind_eq_bind, Option.bind_some]
  split
  · next hpart =>
    have hwhole := Timestamp.inRange_tdiv_add_one hw hdistance (by omega)
    rw [Timestamp.add?_eq hwhole]
    rfl
  · rfl

/-- The window, but for where its view ends. -/
def withViewEnd (w : Window) (viewEnd : Int) : Window := { w with viewEnd := viewEnd }

theorem rotateBy_withViewEnd (w : Window) (e e' : Int) (n : Nat) :
    ((w.withViewEnd e).rotateBy n).withViewEnd e' = (w.rotateBy n).withViewEnd e' := by
  induction n generalizing w e with
  | zero => rfl
  | succ n ih => exact ih w.rotate (e + w.slotWidth)

/-- There is room for `n` more slots behind the window, wherever its view ends. -/
structure CanTurn (n : Nat) (w : Window) : Prop where
  width_pos : 0 < w.slotWidth
  base_lt : w.base < w.slots.size
  size_le : (w.slots.size : Int) ≤ Timestamp.greatest
  least_le : Timestamp.least ≤ w.slotEnd
  slotEnd_le : w.slotEnd ≤ w.windowEnd
  windowEnd_nonneg : 0 ≤ w.windowEnd
  windowEnd_le : w.windowEnd + n * w.slotWidth ≤ Timestamp.greatest

/-- Bounds that have moved by `m` slots leave room for the rest. -/
theorem CanTurn.moved {m n : Nat} (h : CanTurn (m + n) w) {w' : Window}
    (hwidth : w'.slotWidth = w.slotWidth) (hsize : w'.slots.size = w.slots.size)
    (hbase : w'.base < w'.slots.size) (hslotEnd : w'.slotEnd = w.slotEnd + m * w.slotWidth)
    (hwindowEnd : w'.windowEnd = w.windowEnd + m * w.slotWidth) : CanTurn n w' := by
  obtain ⟨hw, -, hcount, hleast, hle, hnonneg, hroom⟩ := h
  have hmoved : 0 ≤ (m : Int) * w.slotWidth := Int.mul_nonneg (by omega) (by omega)
  rw [Int.natCast_add, Int.add_mul] at hroom
  refine ⟨by omega, hbase, by omega, by omega, by omega, by omega, ?_⟩
  rw [hwidth]
  omega

theorem CanTurn.bounds_exact {m n : Nat} (h : CanTurn (m + n) w) :
    Timestamp.mul? m w.slotWidth = some (m * w.slotWidth) ∧
      Timestamp.add? w.slotEnd (m * w.slotWidth) = some (w.slotEnd + m * w.slotWidth) ∧
      Timestamp.add? w.windowEnd (m * w.slotWidth) = some (w.windowEnd + m * w.slotWidth) := by
  obtain ⟨hw, -, -, hleast, hle, hnonneg, hroom⟩ := h
  have hzero : Timestamp.least ≤ 0 := by decide
  have hmoved : 0 ≤ (m : Int) * w.slotWidth := Int.mul_nonneg (by omega) (by omega)
  have hrest : 0 ≤ (n : Int) * w.slotWidth := Int.mul_nonneg (by omega) (by omega)
  rw [Int.natCast_add, Int.add_mul] at hroom
  exact ⟨Timestamp.mul?_eq ⟨by omega, by omega⟩, Timestamp.add?_eq ⟨by omega, by omega⟩,
    Timestamp.add?_eq ⟨by omega, by omega⟩⟩

theorem CanTurn.turn_exact {n : Nat} (h : CanTurn (1 + n) w) :
    Checked.turn w = some (w.rotate.withViewEnd w.viewEnd) ∧
      CanTurn n (w.rotate.withViewEnd w.viewEnd) := by
  have hpos : 0 < w.slots.size := Nat.zero_lt_of_lt h.base_lt
  constructor
  · have hsize := h.size_le
    have hbase := h.base_lt
    obtain ⟨-, hslotEnd, hwindowEnd⟩ := h.bounds_exact
    rw [Int.cast_ofNat_Int, Int.one_mul] at hslotEnd hwindowEnd
    have hnext : Count.add? w.base 1 = some (w.base + 1) := Count.add?_eq (by omega) (by decide)
    have hlast : Count.sub? w.slots.size 1 = some (w.slots.size - 1) := Count.sub?_eq hpos
    have hnewest := physical_exact (w := { w with base := (w.base + 1) % w.slots.size })
      (Nat.mod_lt _ hpos) hsize (show w.slots.size - 1 < w.slots.size by omega)
    have hplace : physical { w with base := (w.base + 1) % w.slots.size } (w.slots.size - 1) <
        w.slots.size := Nat.mod_lt _ hpos
    simp only [Checked.turn, hnext, Count.rem?_eq hpos, hlast, hnewest, if_pos hplace, hslotEnd,
      hwindowEnd, Option.bind_eq_bind, Option.bind_some]
    rfl
  · refine h.moved rfl (size_rotate w) ?_ ?_ ?_
    · exact (Nat.mod_lt _ hpos).trans_eq (size_rotate w).symm
    · simp [rotate, withViewEnd]
    · simp [rotate, withViewEnd]

theorem CanTurn.turns_exact {n : Nat} (h : CanTurn n w) :
    Checked.turns w n = some ((w.rotateBy n).withViewEnd w.viewEnd) := by
  induction n generalizing w with
  | zero => rfl
  | succ n ih =>
    rw [Nat.add_comm] at h
    obtain ⟨hturn, hnext⟩ := h.turn_exact
    have hlater := ih hnext
    rw [rotateBy_withViewEnd] at hlater
    rw [Checked.turns, hturn]
    exact hlater

theorem CanTurn.count_le {n : Nat} (h : CanTurn n w) : (n : Int) ≤ Timestamp.greatest := by
  have hmoved : (n : Int) ≤ n * w.slotWidth := le_mul_of_one_le_right (by omega) h.width_pos
  have hnonneg := h.windowEnd_nonneg
  have hroom := h.windowEnd_le
  omega

theorem CanTurn.jump_exact {m n : Nat} (h : CanTurn (m + n) w) :
    Checked.jump w m w.slots.size = some ((w.skip m).withViewEnd w.viewEnd) ∧
      CanTurn n ((w.skip m).withViewEnd w.viewEnd) := by
  have hpos : 0 < w.slots.size := Nat.zero_lt_of_lt h.base_lt
  constructor
  · have hsize := h.size_le
    have hbase := h.base_lt
    have hcount := h.count_le
    have hzero : Timestamp.least ≤ 0 := by decide
    have hlt := Nat.mod_lt m hpos
    obtain ⟨hdistance, hslotEnd, hwindowEnd⟩ := h.bounds_exact
    have hpart : Timestamp.rem? m w.slots.size = some ((m % w.slots.size : Nat) : Int) :=
      Timestamp.rem?_eq (Int.natCast_pos.2 hpos) ⟨by omega, by omega⟩
    have hplaces : Count.ofTimestamp? ((m % w.slots.size : Nat) : Int) = some (m % w.slots.size) :=
      Count.ofTimestamp?_eq (by omega) (by omega)
    have hsum : Count.add? w.base (m % w.slots.size) = some (w.base + m % w.slots.size) :=
      Count.add?_eq (by omega) (by omega)
    simp only [Checked.jump, hpart, hplaces, hsum, Count.rem?_eq hpos, hdistance, hslotEnd,
      hwindowEnd, Option.bind_eq_bind, Option.bind_some]
    rfl
  · exact h.moved rfl rfl (Nat.mod_lt _ hpos) rfl rfl

theorem CanTurn.advance_exact {n : Nat} (h : CanTurn n w) :
    Checked.advance w n = some ((w.advance n).withViewEnd w.viewEnd) := by
  have hcount := h.count_le
  have hsize := h.size_le
  have hexcess : Timestamp.sub? n w.slots.size = some ((n : Int) - w.slots.size) :=
    Timestamp.sub?_eq ⟨by unfold Timestamp.least; unfold Timestamp.greatest at hsize; omega, by omega⟩
  simp only [Checked.advance, Timestamp.ofCount?_eq hsize, hexcess, Option.bind_eq_bind,
    Option.bind_some]
  unfold Window.advance
  -- A move of at most one turn skips nothing; a longer one leaves exactly one turn to make.
  by_cases hn : n ≤ w.slots.size
  · have hskipped : max ((n : Int) - w.slots.size) 0 = 0 := by omega
    rw [hskipped, if_neg (by omega), if_pos hn]
    exact h.turns_exact
  · obtain ⟨m, rfl⟩ : ∃ m, n = m + w.slots.size := ⟨n - w.slots.size, by omega⟩
    have hskipped : max (((m + w.slots.size : Nat) : Int) - w.slots.size) 0 = m := by omega
    obtain ⟨hjump, hnext⟩ := h.jump_exact
    have hturns := hnext.turns_exact
    rw [rotateBy_withViewEnd] at hturns
    rw [hskipped, if_pos (by omega), if_neg hn, hjump, Option.bind_some, Nat.add_sub_cancel]
    have hturn : (((m + w.slots.size : Nat) : Int) - m).toNat = w.slots.size := by omega
    rw [hturn]
    exact hturns

theorem Contained.canTurn (h : Contained kind w) (hend : 0 ≤ w.windowEnd) {n : Nat}
    (hn : w.HasRoom n) : CanTurn n w := by
  have hview := h.regular.least_le_viewEnd h.bounded
  have hfuture : 0 ≤ ((w.slots.size - w.viewSlots : Nat) : Int) * w.slotWidth :=
    Int.mul_nonneg (by omega) (Int.le_of_lt h.regular.width_pos)
  have hwindowEnd := h.regular.windowEnd_eq
  rw [← h.regular.slotEnd_eq] at hview hwindowEnd
  exact ⟨h.regular.width_pos, h.regular.base_lt, h.size_le, hview, by omega, hend, hn⟩

theorem Contained.slideTo_exact (h : Contained kind w) {t d : Int} (hd : 0 ≤ d)
    (hend : 0 ≤ w.windowEnd) : Checked.slideTo w t d = some (w.slideTo t d) := by
  have hroom := h.regular.hasRoom_slotsMoved h.bounded.le_greatest t d
  unfold Checked.slideTo slideTo
  unfold slotsMoved at hroom
  split
  case isFalse => rfl
  case isTrue hdue =>
    rw [if_pos hdue] at hroom
    rw [h.slotsToAdvance_exact hd hend, Option.bind_eq_bind, Option.bind_some]
    generalize w.slotsToAdvance t d = slots at hroom
    by_cases hslots : slots ≤ 0
    · rw [if_pos hslots, Int.toNat_of_nonpos hslots]
      rfl
    · obtain ⟨n, rfl⟩ := Int.eq_ofNat_of_zero_le (show 0 ≤ slots by omega)
      rw [Int.toNat_natCast] at hroom ⊢
      have hcan := h.canTurn hend hroom
      obtain ⟨hdistance, hviewEnd, -⟩ := hcan.bounds_exact (m := n) (n := 0)
      rw [h.regular.slotEnd_eq] at hviewEnd
      have hview := (h.regular.movedBy_advance n).viewEnd_eq
      rw [if_neg hslots, hcan.advance_exact]
      simp only [withViewEnd, hdistance, hviewEnd, Option.bind_eq_bind, Option.bind_some]
      rw [← hview]

/-! ## Runs -/

/-- Every operation on the window comes out in sixty-four bits as it does in whole numbers. Whether
the window is due is not among them: all that it reckons with is clamped. -/
structure Exact (w : Window) : Prop where
  start_eq : Checked.start w = some w.start
  placeOf_eq : ∀ t, Timestamp.InRange t → Checked.placeOf w t = some (w.placeOf? t)
  insert_eq : ∀ v t force, Timestamp.InRange t →
    Checked.insert w v t force = some (w.insert? v t force)
  slideTo_eq : ∀ t d, Timestamp.InRange t → 0 ≤ d → 0 ≤ w.windowEnd →
    Checked.slideTo w t d = some (w.slideTo t d)
  get_eq : ∀ t, Timestamp.InRange t → Checked.get w t = some (w.get t)
  upTo_eq : ∀ t, Timestamp.InRange t → Checked.upTo w t = some (w.upTo t)
  viewValues_eq : Checked.oldest w w.viewSlots = some w.viewValues
  values_eq : Checked.oldest w w.slots.size = some w.values
  viewTimes_eq : Checked.viewTimes w = some w.viewTimes
  text_eq : Checked.text w = some w.text

theorem Contained.exact (h : Contained kind w) : Exact w where
  start_eq := h.start_exact
  placeOf_eq _ ht := h.placeOf_exact ht
  insert_eq v _ force ht := h.insert_exact v force ht
  slideTo_eq _ _ _ hd hend := h.slideTo_exact hd hend
  get_eq _ ht := h.get_exact ht
  upTo_eq _ ht := h.upTo_exact ht
  viewValues_eq := h.oldest_exact h.regular.view_le
  values_eq := h.oldest_exact (Nat.le_refl _)
  viewTimes_eq := h.viewTimes_exact
  text_eq := h.text_exact

/-- A call with a timestamp; a slide has a delay that is not negative, and comes while the window
does not end before zero. -/
def Allows (w : Window) : Call → Prop
  | .add _ t _ => Timestamp.InRange t
  | .slide t d => Timestamp.InRange t ∧ 0 ≤ d ∧ 0 ≤ w.windowEnd

/-- Each call of a run is allowed when it is made. -/
def Permits (w : Window) : List Call → Prop
  | [] => True
  | c :: calls => w.Allows c ∧ (w.after c).Permits calls

instance (w : Window) (c : Call) : Decidable (w.Allows c) :=
  match c with
  | .add _ _ _ => inferInstanceAs (Decidable (Timestamp.InRange _))
  | .slide _ _ => inferInstanceAs (Decidable (_ ∧ _ ∧ _))

instance decidablePermits : (w : Window) → (calls : List Call) → Decidable (w.Permits calls)
  | _, [] => .isTrue trivial
  | w, c :: calls =>
    have := decidablePermits (w.after c) calls
    inferInstanceAs (Decidable (_ ∧ _))

theorem Contained.after_exact (h : Contained kind w) {c : Call} (hc : w.Allows c) :
    Checked.after w c = some (w.after c) := by
  cases c with
  | add v t force =>
    rw [Checked.after, h.insert_exact v force hc]
    rfl
  | slide t d => exact h.slideTo_exact hc.2.1 hc.2.2

theorem Contained.run_exact (h : Contained kind w) {calls : List Call} (hcalls : w.Permits calls) :
    Checked.run w calls = some (w.run calls) ∧ Contained kind (w.run calls) := by
  induction calls generalizing w with
  | nil => exact ⟨rfl, h⟩
  | cons c calls ih =>
    obtain ⟨hc, hcalls⟩ := hcalls
    obtain ⟨hrun, hlater⟩ := ih (h.after c) hcalls
    refine ⟨?_, hlater⟩
    rw [Checked.run, List.foldlM_cons, h.after_exact hc]
    exact hrun

end Window

end MetricAlarm
