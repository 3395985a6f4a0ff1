import MetricAlarm.Proofs.Window.Consistency

/-!
# How far a slide goes

A slide is reckoned with a clamped distance, a truncated quotient, a remainder and a cap. What comes
out is simple: the window moves on from a position as long as the timestamp is more than the grace
past the end of the view there, and there is room for one more slot. Main statements:
`Regular.lt_slotsMoved_iff`, which says so, and `slideTo_slideTo`: slides after one another come to
one slide to the latest of their timestamps.
-/

namespace MetricAlarm.Window

variable {kind : Statistic} {w : Window}

/-- How far a timestamp may lie behind the end of a view without the window moving on from there. A
delay of a slot or more is as good as one that is just short of it. -/
def grace (w : Window) (minDelay : Int) : Int := min minDelay (w.slotWidth - 1)

/-! ## Positions that a slide moves past -/

/-- Of the whole slots in a distance and the part that is left, the part counts if it is longer than
the delay. So `k` slots are fewer than those counted if the distance goes past them by more than the
delay, or by a whole slot. -/
theorem lt_counted_iff {distance width d : Int} (hw : 0 < width) (hpos : 0 ≤ distance) (hd : 0 ≤ d)
    (k : Nat) :
    k < (if distance.tmod width > d then distance.tdiv width + 1 else distance.tdiv width) ↔
      k * width + min d (width - 1) < distance := by
  rw [Int.tdiv_eq_ediv_of_nonneg hpos, Int.tmod_eq_emod_of_nonneg hpos]
  have hsplit := Int.ediv_mul_add_emod distance width
  have hnonneg := Int.emod_nonneg distance (Int.ne_of_gt hw)
  have hlt := Int.emod_lt_of_pos distance hw
  generalize distance / width = whole at hsplit ⊢
  generalize distance % width = part at hsplit hnonneg hlt ⊢
  rcases Int.lt_trichotomy k whole with hk | hk | hk
  · have hle : ((k : Int) + 1) * width ≤ whole * width :=
      Int.mul_le_mul_of_nonneg_right (by omega) (by omega)
    rw [Int.add_mul] at hle
    split <;> omega
  · subst hk
    split <;> omega
  · have hle : (whole + 1) * width ≤ k * width :=
      Int.mul_le_mul_of_nonneg_right (by omega) (by omega)
    rw [Int.add_mul] at hle
    split <;> omega

/-- A slide moves the window past a position exactly when it is due at all, the timestamp is more
than the grace past the end of the view there, and there is room for one more slot. -/
theorem Regular.lt_slotsMoved_iff (h : Regular kind w) (hb : w.Bounded) (hend : 0 ≤ w.windowEnd)
    {t d : Int} (hd : 0 ≤ d) (ht : Timestamp.InRange t) (k : Nat) :
    k < w.slotsMoved t d ↔ w.viewEnd + d < t ∧
      w.viewEnd + k * w.slotWidth + w.grace d < t ∧ w.HasRoom (k + 1) := by
  have hw := h.width_pos
  have hdue := isDue_iff hd (h.least_le_viewEnd hb) ht
  unfold slotsMoved
  split
  case isFalse hnot =>
    rw [hdue] at hnot
    omega
  case isTrue hyes =>
    rw [hdue] at hyes
    have hdistance : 0 ≤ Timestamp.clamp (t - w.slotEnd) := by
      rw [h.slotEnd_eq]
      unfold Timestamp.clamp Timestamp.least Timestamp.greatest
      omega
    have hcap : (k : Int) < (Timestamp.greatest - w.windowEnd).tdiv w.slotWidth ↔
        w.HasRoom (k + 1) := by
      rw [h.hasRoom_iff hb.le_greatest, Int.natCast_add_one]
      exact Int.lt_iff_add_one_le
    rw [Int.lt_toNat, slotsToAdvance, Int.lt_min, lt_counted_iff hw hdistance hd, hcap, ← and_assoc]
    refine and_congr_left fun hroom => ?_
    -- Where there is room, the position lies too close for the distance to be clamped.
    rw [HasRoom, Int.natCast_add_one, Int.add_mul] at hroom
    rw [h.slotEnd_eq, grace]
    unfold Timestamp.clamp Timestamp.least
    omega

/-- After a move of `n` slots a slide has `n` slots fewer to go. -/
theorem Regular.slotsMoved_advance (h : Regular kind w) (hb : w.Bounded) (hend : 0 ≤ w.windowEnd)
    {t d : Int} (hd : 0 ≤ d) (hlt : d < w.slotWidth) (ht : Timestamp.InRange t) {n : Nat}
    (hn : w.HasRoom n) : (w.advance n).slotsMoved t d = w.slotsMoved t d - n := by
  have hw := h.width_pos
  have hmoved : 0 ≤ (n : Int) * w.slotWidth := Int.mul_nonneg (by omega) (by omega)
  have hwidth := slotWidth_advance h.base_lt n
  have hwindowEnd := windowEnd_advance h.base_lt n
  have hviewEnd := (h.movedBy_advance n).viewEnd_eq
  refine eq_of_forall_lt_iff fun k => ?_
  rw [(h.advance n).lt_slotsMoved_iff (h.bounded_advance hb hn) (by omega) hd ht, Nat.lt_sub_iff_add_lt,
    h.lt_slotsMoved_iff hb hend hd ht]
  unfold HasRoom grace
  rw [hwidth, hwindowEnd, hviewEnd]
  have hk : 0 ≤ (k : Int) * w.slotWidth := Int.mul_nonneg (by omega) (by omega)
  simp only [Int.natCast_add, Int.add_mul]
  omega

/-- A later timestamp moves the window at least as far. -/
theorem Regular.slotsMoved_mono (h : Regular kind w) (hb : w.Bounded) (hend : 0 ≤ w.windowEnd)
    {t t' d : Int} (hd : 0 ≤ d) (ht : Timestamp.InRange t) (ht' : Timestamp.InRange t')
    (hle : t ≤ t') : w.slotsMoved t d ≤ w.slotsMoved t' d := by
  refine le_of_forall_lt fun k hk => ?_
  rw [h.lt_slotsMoved_iff hb hend hd ht] at hk
  rw [h.lt_slotsMoved_iff hb hend hd ht']
  exact ⟨by omega, by omega, hk.2.2⟩

theorem Regular.slotsMoved_max (h : Regular kind w) (hb : w.Bounded) (hend : 0 ≤ w.windowEnd)
    {t t' d : Int} (hd : 0 ≤ d) (ht : Timestamp.InRange t) (ht' : Timestamp.InRange t') :
    w.slotsMoved (max t t') d = max (w.slotsMoved t d) (w.slotsMoved t' d) := by
  rcases Int.le_total t t' with hle | hle
  · rw [max_eq_right hle, max_eq_right (h.slotsMoved_mono hb hend hd ht ht' hle)]
  · rw [max_eq_left hle, max_eq_left (h.slotsMoved_mono hb hend hd ht' ht hle)]

theorem Regular.advance_advance (h : Regular kind w) (m n : Nat) :
    (w.advance m).advance n = w.advance (m + n) := by
  rw [(h.advance m).advance_eq_rotateBy, h.advance_eq_rotateBy, h.advance_eq_rotateBy,
    rotateBy_eq_iterate, rotateBy_eq_iterate, rotateBy_eq_iterate, Nat.add_comm,
    Function.iterate_add_apply]

theorem Regular.slideTo_max (h : Regular kind w) (hb : w.Bounded) (hend : 0 ≤ w.windowEnd)
    {t t' d : Int} (hd : 0 ≤ d) (hlt : d < w.slotWidth) (ht : Timestamp.InRange t)
    (ht' : Timestamp.InRange t') : w.slideTo (max t t') d = (w.slideTo t d).slideTo t' d := by
  have hroom := h.hasRoom_slotsMoved hb.le_greatest t d
  simp only [slideTo_eq_advance_slotsMoved]
  rw [h.slotsMoved_advance hb hend hd hlt ht' hroom, h.advance_advance,
    h.slotsMoved_max hb hend hd ht ht']
  congr 1
  omega

/-- With a delay of less than a slot, slides after one another leave the window as the one slide to
the latest of their timestamps does, whatever happened before and however a slide is cut short. So
their order does not count, and neither does a repetition. -/
theorem slideTo_slideTo {shape : WindowShape} {w : Window} (h : create shape = .ok w)
    (calls : List Call) {d t t' : Int} (hend : 0 ≤ (w.run calls).windowEnd) (hd : 0 ≤ d)
    (hlt : d < shape.slotWidth) (ht : Timestamp.InRange t) (ht' : Timestamp.InRange t') :
    let last := w.run calls
    (last.slideTo t d).slideTo t' d = last.slideTo (max t t') d ∧
      (last.slideTo t d).slideTo t' d = (last.slideTo t' d).slideTo t d ∧
      (last.slideTo t d).slideTo t d = last.slideTo t d := by
  have hr := (regular_create h).run calls
  have hb := (regular_create h).bounded_run (bounded_create h) calls
  have hwidth : (w.run calls).slotWidth = shape.slotWidth :=
    ((regular_create h).frame_run calls).2.2.1.trans (frame_create h).2.2.1
  rw [← hwidth] at hlt
  refine ⟨(hr.slideTo_max hb hend hd hlt ht ht').symm, ?_, ?_⟩
  · rw [← hr.slideTo_max hb hend hd hlt ht ht', ← hr.slideTo_max hb hend hd hlt ht' ht, max_comm]
  · rw [← hr.slideTo_max hb hend hd hlt ht ht, max_self]

/-- A slide to the end of time from a view that ends before zero: the distance is clamped, the move
is cut short, and the later slide has nothing left to do. -/
theorem slideTo_slideTo_end_of_time :
    ∃ w, create ⟨.sum, .absolute, 5, 3, 2, -10⟩ = .ok w ∧
      let last := w.run [.add 1 (-12) false]
      last.windowEnd = 0 ∧
      (last.slideTo 12 4).slideTo Timestamp.greatest 4 =
        last.slideTo (max 12 Timestamp.greatest) 4 ∧
      (last.slideTo (max 12 Timestamp.greatest) 4).windowEnd = Timestamp.greatest - 2 := by
  have h : create ⟨.sum, .absolute, 5, 3, 2, -10⟩ = .ok _ := rfl
  refine ⟨_, h, by decide +kernel, ?_, by decide +kernel⟩
  exact (slideTo_slideTo h [.add 1 (-12) false] (by decide +kernel) (by decide) (by decide)
    (by decide) (by decide)).1

/-! ## Windows at rest -/

theorem isDue_of_le {t t' d : Int} (hle : t' ≤ t) (hdue : w.isDue t d = false) :
    w.isDue t' d = false := by
  unfold isDue at hdue ⊢
  rw [decide_eq_false_iff_not] at hdue ⊢
  omega

/-- A slide that leaves room has gone far enough: up to its timestamp the window is not due again. -/
theorem Regular.isDue_slideTo (h : Regular kind w) (hb : w.Bounded) {t t' d : Int} (hd : 0 ≤ d)
    (ht : Timestamp.InRange t) (hend : w.isDue t d = true → 0 ≤ w.windowEnd)
    (hroom : (w.slideTo t d).HasRoom 1) (hle : t' ≤ t) : (w.slideTo t d).isDue t' d = false := by
  refine isDue_of_le hle ?_
  cases hdue : w.isDue t d with
  | false => rwa [slideTo_of_not_due hdue]
  | true =>
    have hfits := h.hasRoom_slotsMoved hb.le_greatest t d
    rw [slideTo_eq_advance_slotsMoved] at hroom ⊢
    generalize hn : w.slotsMoved t d = n at hroom hfits ⊢
    have hview := (h.advance n).least_le_viewEnd (h.bounded_advance hb hfits)
    -- The window does not move past the position where it stops, and not for want of room.
    have hstop := (h.lt_slotsMoved_iff hb (hend hdue) hd ht n).not.1 (by omega)
    rw [isDue_iff hd (h.least_le_viewEnd hb) ht] at hdue
    rw [← Bool.not_eq_true, isDue_iff hd hview ht, (h.movedBy_advance n).viewEnd_eq]
    unfold HasRoom grace at *
    rw [windowEnd_advance h.base_lt, slotWidth_advance h.base_lt] at hroom
    rw [Int.natCast_add, Int.add_mul] at hstop
    omega

/-- The slots by which a window of a width moves at the first moment when it is due. -/
def stride (width minDelay : Int) : Nat := (max 1 ((minDelay + 1) / width)).toNat

theorem lt_stride_iff {width d : Int} (hw : 0 < width) (hd : 0 ≤ d) (k : Nat) :
    k < stride width d ↔ k * width + min d (width - 1) ≤ d := by
  have hdiv : (k : Int) < (d + 1) / width ↔ k * width + width ≤ d + 1 := by
    rw [Int.lt_iff_add_one_le, Int.le_ediv_iff_mul_le hw, Int.add_mul, Int.one_mul]
  rw [stride, Int.lt_toNat, lt_max_iff, hdiv]
  cases k with
  | zero => omega
  | succ k =>
    have hk : 0 ≤ (k : Int) * width := Int.mul_nonneg (by omega) (by omega)
    rw [Int.natCast_add_one, Int.add_mul]
    omega

theorem stride_pos (width d : Int) : 0 < stride width d := by
  rw [stride, Int.lt_toNat]
  omega

theorem Regular.hasRoom_of_le (h : Regular kind w) {m n : Nat} (hn : w.HasRoom n) (hle : m ≤ n) :
    w.HasRoom m := by
  have hmul : (m : Int) * w.slotWidth ≤ n * w.slotWidth :=
    Int.mul_le_mul_of_nonneg_right (Int.ofNat_le.2 hle) (Int.le_of_lt h.width_pos)
  unfold HasRoom at hn ⊢
  omega

theorem Regular.slotsMoved_first (h : Regular kind w) (hb : w.Bounded) (hend : 0 ≤ w.windowEnd)
    {d : Int} (hd : 0 ≤ d) (ht : Timestamp.InRange (w.viewEnd + d + 1))
    (hroom : w.HasRoom (stride w.slotWidth d)) :
    w.slotsMoved (w.viewEnd + d + 1) d = stride w.slotWidth d := by
  refine eq_of_forall_lt_iff fun k => ?_
  rw [h.lt_slotsMoved_iff hb hend hd ht]
  constructor
  · rintro ⟨-, hpast, -⟩
    rw [lt_stride_iff h.width_pos hd]
    unfold grace at hpast
    omega
  · intro hk
    refine ⟨by omega, ?_, h.hasRoom_of_le hroom hk⟩
    rw [lt_stride_iff h.width_pos hd] at hk
    unfold grace
    omega

end MetricAlarm.Window
