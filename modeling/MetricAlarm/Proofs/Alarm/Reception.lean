import MetricAlarm.Proofs.Alarm.Polling
import MetricAlarm.Proofs.Alarm.Verdict
import MetricAlarm.Proofs.Condition.RoundTrip
import MetricAlarm.Proofs.Window.Reception

/-!
# Starved views

A view with a slot that never receives a sample never raises the alarm. There are such views only
under the resolution of minutes, with periods of less than sixty seconds; all other sub-alarms can
leave the open verdict from every state, while there is time. Main statements:
`Sound.exists_verdict` and `receives_slots`.
-/

namespace MetricAlarm

namespace SubAlarm

/-- Some timestamp is looked up in the slot, and its samples are taken there. -/
def Receives (a : SubAlarm) (i : Nat) : Prop :=
  ∃ t, Timestamp.InRange t ∧ a.window.placeOf? t = some (a.window.physical i) ∧
    ∀ v, a.insert? v t = some { a with window := a.window.addAt (a.window.physical i) v t }

theorem receives_iff (a : SubAlarm) (i : Nat) : a.Receives i ↔ a.window.Receives i := by
  constructor
  · rintro ⟨t, hrange, hplace, -⟩
    exact ⟨t, hrange, hplace⟩
  · rintro ⟨t, hrange, hplace⟩
    refine ⟨t, hrange, hplace, fun v => ?_⟩
    simp [insert?, Window.insert?, hplace]

/-- The timestamp of a call. -/
def Call.time : Call → Int
  | .sample _ t => t
  | .evaluate now => now

/-! ## Leaving the open verdict -/

variable {c : Condition} {s : Settings} {a : SubAlarm} {kind : Statistic}

/-- When every slot receives samples, an empty window can be filled slot by slot. -/
theorem exists_filling {n : Nat} (h : Window.FilledTo kind n a.window)
    (hreceives : ∀ i < a.window.slots.size, a.window.Receives i) (m : Nat)
    (hm : n + m ≤ a.window.slots.size) :
    ∃ times : List Int, (∀ t ∈ times, Timestamp.InRange t) ∧
      Window.FilledTo kind (n + m) (a.run (times.map (.sample 1))).window ∧
      (a.run (times.map (.sample 1))).window.viewEnd = a.window.viewEnd := by
  induction m generalizing a n with
  | zero => exact ⟨[], by simp, h, rfl⟩
  | succ m ih =>
    obtain ⟨t, hrange, -, htaken⟩ := (a.receives_iff n).2 (hreceives n (by omega))
    have hafter : a.after (.sample 1 t) =
        { a with window := a.window.addAt (a.window.physical n) 1 t } := by
      rw [after, htaken]
      rfl
    have hsize : (a.after (.sample 1 t)).window.slots.size = a.window.slots.size := by
      rw [hafter]
      simp [Window.addAt]
    obtain ⟨times, htimes, hfilled, hend⟩ := ih (a := a.after (.sample 1 t)) (n := n + 1)
      (by rw [hafter]; exact h.addAt (by omega) t)
      (by
        intro i hi
        rw [hsize] at hi
        rw [hafter, Window.receives_addAt]
        exact hreceives i hi)
      (by omega)
    refine ⟨t :: times, ?_, ?_, ?_⟩
    · rintro x (_ | ⟨_, hx⟩)
      · exact hrange
      · exact htimes x hx
    · rw [Nat.add_right_comm, Nat.add_assoc] at hfilled
      exact hfilled
    · refine hend.trans ?_
      rw [hafter]
      rfl

theorem verdict_ne_undetermined (c : Condition) {values : List Float} (hne : values ≠ [])
    (h : ∀ x ∈ values, x.isNaN = false) : verdict c values ≠ .undetermined := by
  rw [verdict_eq c hne]
  split <;> decide

/-- A slide can go past all slots of a window and leave time for the next view to be judged. -/
theorem Sound.exists_emptying (h : Sound c s a) (hdelay : 0 ≤ s.minDelay)
    (hend : 0 ≤ a.window.windowEnd)
    (htime : a.window.windowEnd + (a.window.slots.size + 1) * slotWidth c s + 2 * s.minDelay ≤
      Timestamp.greatest) :
    ∃ now n, Timestamp.InRange now ∧ (a.evaluate now).window = a.window.advance n ∧
      a.window.slots.size ≤ n ∧
      a.window.viewEnd + n * slotWidth c s + s.minDelay < Timestamp.greatest := by
  have hw := h.regular.width_pos
  have hsize := h.regular.size_pos
  have hleast := h.regular.least_le_viewEnd h.bounded
  have hviewEnd := h.regular.windowEnd_eq
  rw [← h.slotWidth_eq, Int.add_mul, Int.one_mul] at htime
  rw [← h.slotWidth_eq]
  have hfuture : 0 ≤ ((a.window.slots.size - a.window.viewSlots : Nat) : Int) *
      a.window.slotWidth := Int.mul_nonneg (by omega) (by omega)
  have hall : a.window.slotWidth ≤ a.window.slots.size * a.window.slotWidth := by
    have := Int.mul_le_mul_of_nonneg_right (show (1 : Int) ≤ a.window.slots.size by omega)
      (Int.le_of_lt hw)
    omega
  let now := a.window.viewEnd + a.window.slots.size * a.window.slotWidth + s.minDelay
  have hnow : Timestamp.InRange now := ⟨by omega, by omega⟩
  have hdue : a.isDue now = true := (h.isDue_iff hdelay hnow).2 (by omega)
  have hmoved := h.regular.lt_slotsMoved_iff h.bounded hend hdelay hnow
  have hroom : a.window.HasRoom a.window.slots.size := by
    unfold Window.HasRoom
    omega
  have hpast : a.window.slots.size ≤ a.window.slotsMoved now s.minDelay := by
    obtain ⟨k, hk⟩ := Nat.exists_eq_succ_of_ne_zero (Nat.ne_of_gt hsize)
    have hmul : (a.window.slots.size : Int) * a.window.slotWidth =
        k * a.window.slotWidth + a.window.slotWidth := by
      rw [hk, Nat.succ_eq_add_one, Int.natCast_add_one, Int.add_mul, Int.one_mul]
    have hgrace : a.window.grace s.minDelay ≤ s.minDelay := Int.min_le_left _ _
    rw [hk] at hroom ⊢
    exact (hmoved k).2 ⟨by omega, by omega, hroom⟩
  refine ⟨now, a.window.slotsMoved now s.minDelay, hnow, ?_, hpast, ?_⟩
  · rw [evaluate, if_pos hdue, h.minDelay_eq]
    exact Window.slideTo_eq_advance_slotsMoved _ _ _
  · -- The position before the last one is still behind the timestamp.
    obtain ⟨k, hk⟩ := Nat.exists_eq_succ_of_ne_zero (show a.window.slotsMoved now s.minDelay ≠ 0 by
      omega)
    have hbefore := ((hmoved k).1 (by omega)).2.1
    have hgrace : 0 ≤ a.window.grace s.minDelay := le_min hdelay (by omega)
    rw [hk, Nat.succ_eq_add_one, Int.natCast_add_one, Int.add_mul, Int.one_mul]
    omega

/-- When every slot receives samples, a sub-alarm with time enough left leaves the open verdict: one
evaluation slides past all slots, each slot of the new window gets a sample, and the next evaluation
judges the view. -/
theorem Sound.exists_verdict (h : Sound c s a) (hdelay : 0 ≤ s.minDelay)
    (hunit : a.window.resolution.unit ≤ slotWidth c s) (hend : 0 ≤ a.window.windowEnd)
    (htime : a.window.windowEnd + (a.window.slots.size + 1) * slotWidth c s + 2 * s.minDelay ≤
      Timestamp.greatest) :
    ∃ later : List Call, (∀ call ∈ later, Timestamp.InRange call.time) ∧
      (a.run later).state ≠ .undetermined := by
  obtain ⟨now, n, hnow, hslide, hn, hlast⟩ := h.exists_emptying hdelay hend htime
  have hempty := h.after (.evaluate now)
  have hwindow : (a.after (.evaluate now)).window = a.window.advance n := hslide
  have hbound := (h.regular.movedBy_advance n).viewEnd_eq
  rw [← hwindow, h.slotWidth_eq] at hbound
  have hresolution : (a.window.advance n).resolution = a.window.resolution := by
    rw [Window.advance_eq_skip h.regular.base_lt]
    rfl
  have hreceives : ∀ i < (a.after (.evaluate now)).window.slots.size,
      (a.after (.evaluate now)).window.Receives i := by
    intro i hi
    refine hempty.regular.receives_of_unit_le hempty.bounded ?_ hi
    rwa [hempty.slotWidth_eq, hwindow, hresolution]
  obtain ⟨times, htimes, hfilled, hviewEnd⟩ := exists_filling
    (hwindow ▸ h.regular.filledTo_advance hn) hreceives _ (Nat.le_of_eq (Nat.zero_add _))
  rw [Nat.zero_add] at hfilled
  have hfull := hempty.run (times.map (.sample 1))
  set full := (a.after (.evaluate now)).run (times.map (.sample 1)) with hdef
  have hleast := hfull.regular.least_le_viewEnd hfull.bounded
  let first := full.window.viewEnd + s.minDelay + 1
  have hfirst : Timestamp.InRange first := ⟨by omega, by omega⟩
  refine ⟨.evaluate now :: (times.map (.sample 1) ++ [.evaluate first]), ?_, ?_⟩
  · intro call hcall
    simp only [List.mem_cons, List.mem_append, List.mem_map, List.not_mem_nil, or_false] at hcall
    obtain rfl | ⟨t, ht, rfl⟩ | rfl := hcall
    · exact hnow
    · exact htimes t ht
    · exact hfirst
  · have hrun : a.run (.evaluate now :: (times.map (.sample 1) ++ [.evaluate first])) =
        full.evaluate first := by
      simp only [SubAlarm.run, List.foldl_cons, List.foldl_append, List.foldl_nil, hdef]
      rfl
    rw [hrun, evaluate, if_pos ((hfull.isDue_iff hdelay hfirst).2 (by omega))]
    have hview := hfull.regular.view_pos
    refine verdict_ne_undetermined _ ?_ (hfilled.viewValues ?_)
    · rw [← List.length_pos_iff]
      simpa [Window.viewValues, Window.oldest] using hview
    · rw [hfull.viewSlots_eq, ← hempty.viewSlots_eq]
      exact hempty.regular.view_le

/-! ## Sub-alarms under checked settings -/

theorem minDelay_nonneg (h : s.check = .ok ()) : 0 ≤ s.minDelay := by
  have hseconds := ((Settings.check_eq_ok_iff s).1 h).1
  have hdelay : 0 ≤ s.minDelaySeconds * s.resolution.perSecond := by
    refine Int.mul_nonneg hseconds ?_
    cases s.resolution <;> decide
  unfold Settings.minDelay Timestamp.clamp Timestamp.least Timestamp.greatest
  omega

/-- Only under the resolution of minutes can slots be narrower than the unit. -/
theorem Sound.unit_le_slotWidth_iff (h : Sound c s a) :
    s.resolution.unit ≤ slotWidth c s ↔ (s.resolution = .minutes → 60 ≤ c.period.toNat) := by
  have hpos := h.slotWidth_pos
  clear h
  unfold slotWidth at *
  generalize s.resolution = r at *
  cases r <;> simp [Resolution.unit, Resolution.perSecond] at * <;> omega

theorem onGrid_window_run {viewEnd : Int} (h : create c s viewEnd = .ok a)
    (hrange : Timestamp.InRange viewEnd) (calls : List Call) :
    (a.run calls).window.resolution = s.resolution ∧
      Window.OnGrid s.resolution.perSecond (a.run calls).window := by
  obtain ⟨w, hw, rfl⟩ := exists_window_of_create h
  rw [window_run]
  obtain ⟨-, -, -, hres⟩ := Window.frame_create hw
  obtain ⟨-, -, -, hres'⟩ :=
    (Window.regular_create hw).frame_run (calls.map (·.onWindow s.minDelay))
  refine ⟨hres'.trans hres, Window.onGrid_run hw hrange ?_ (Int.dvd_mul_left _ _) _⟩
  change s.resolution.perSecond ∣ s.resolution.unit
  cases s.resolution <;> decide

theorem size_run {viewEnd : Int} (h : create c s viewEnd = .ok a) (calls : List Call) :
    (a.run calls).window.slots.size = c.periods.toNat + s.futureSlots := by
  obtain ⟨w, hw, rfl⟩ := exists_window_of_create h
  rw [window_run]
  obtain ⟨hsize, -, -, -⟩ := Window.frame_create hw
  obtain ⟨hsize', -, -, -⟩ :=
    (Window.regular_create hw).frame_run (calls.map (·.onWindow s.minDelay))
  exact hsize'.trans hsize

/-- Under the resolution of minutes the first view ends at a full minute, and the newest of its
slots, when shorter than a minute, holds none. -/
theorem not_receives_newest {viewEnd : Int} (h : create c s viewEnd = .ok a)
    (hrange : Timestamp.InRange viewEnd) (hminutes : s.resolution = .minutes)
    (hshort : c.period.toNat < 60) : ¬ a.Receives (c.periods.toNat - 1) := by
  obtain ⟨hres, hgrid⟩ := onGrid_window_run h hrange []
  have hnarrow : slotWidth c s < s.resolution.unit := by
    rw [← Int.not_le, (sound_create h).unit_le_slotWidth_iff]
    exact fun hlong => absurd (hlong hminutes) (Nat.not_le.2 hshort)
  obtain ⟨w, hw, rfl⟩ := exists_window_of_create h
  obtain ⟨-, hview, hwidth, -⟩ := Window.frame_create hw
  change w.resolution = s.resolution at hres
  change Window.OnGrid s.resolution.perSecond w at hgrid
  rw [← hres] at hgrid hnarrow
  rw [receives_iff, show c.periods.toNat = w.viewSlots from hview.symm]
  refine Window.not_receives_newest hw hrange hgrid ?_
  rw [hwidth]
  exact hnarrow

/-- A slot can receive a sample exactly when its time range holds a multiple of the unit. So no slot
is starved, and the open verdict can be left while there is time, unless periods are shorter than a
minute under the resolution of minutes: then the newest slot of the first view is starved. -/
theorem receives_slots {viewEnd : Int} (h : create c s viewEnd = .ok a) (hcheck : s.check = .ok ())
    (hrange : Timestamp.InRange viewEnd) (calls : List Call) :
    let last := a.run calls
    let size := c.periods.toNat + s.futureSlots
    let slot := fun i : Nat => last.window.start + i * slotWidth c s
    (∀ i < size, last.Receives i ↔
      ∃ t, s.resolution.unit ∣ t ∧ slot i ≤ t ∧ t < slot i + slotWidth c s) ∧
    ((s.resolution = .minutes → 60 ≤ c.period.toNat) →
      (∀ i < size, last.Receives i) ∧
      (0 ≤ last.window.windowEnd →
        last.window.windowEnd + (size + 1 : Nat) * slotWidth c s + 2 * s.minDelay ≤
          Timestamp.greatest →
        ∃ later : List Call, (∀ call ∈ later, Timestamp.InRange call.time) ∧
          (last.run later).state ≠ .undetermined)) ∧
    (s.resolution = .minutes → c.period.toNat < 60 → ¬ a.Receives (c.periods.toNat - 1)) := by
  intro last size slot
  have hdelay := minDelay_nonneg hcheck
  have hsound : Sound c s last := sound_run h calls
  obtain ⟨hres, hgrid⟩ := onGrid_window_run h hrange calls
  have hsize : last.window.slots.size = size := size_run h calls
  have hgrid' : Window.OnGrid last.window.resolution.perSecond last.window := by
    rw [hres]
    exact hgrid
  refine ⟨?_, ?_, ?_⟩
  · intro i hi
    rw [receives_iff, hsound.regular.receives_iff hsound.bounded hgrid' (hsize ▸ hi), hres,
      hsound.slotWidth_eq]
  · intro hlong
    have hunit : last.window.resolution.unit ≤ slotWidth c s := by
      rw [hres]
      exact hsound.unit_le_slotWidth_iff.2 hlong
    constructor
    · intro i hi
      rw [receives_iff]
      refine hsound.regular.receives_of_unit_le hsound.bounded ?_ (hsize ▸ hi)
      rwa [hsound.slotWidth_eq]
    · intro hend htime
      refine hsound.exists_verdict hdelay hunit hend ?_
      rw [hsize]
      exact htime
  · intro hminutes hshort
    exact not_receives_newest h hrange hminutes hshort

/-- Slots of ninety seconds are not aligned with minutes, and yet can be filled in every state; the
one slot of a view of ten seconds cannot. -/
theorem receives_slots_minutes :
    let c : Condition := ⟨.max, .named "cpu", .gt, 90, 90, 2, false⟩
    let d : Condition := ⟨.max, .named "cpu", .gt, 90, 10, 1, false⟩
    let s : Settings := ⟨2, 10, .minutes, "info"⟩
    let a : SubAlarm := ⟨c, ⟨.minutes, 90000, 2, 360000, Window.freshSlots .max (-120000) 90000 4, 0,
      60000, 60000, 240000⟩, 10000, .undetermined⟩
    let b : SubAlarm := ⟨d, ⟨.minutes, 10000, 1, 30000, Window.freshSlots .max 50000 10000 3, 0,
      60000, 60000, 80000⟩, 10000, .undetermined⟩
    let last := a.run [.sample (0 / 0) 59999, .evaluate 200000]
    create c s 119999 = .ok a ∧ create d s 60000 = .ok b ∧
      last.window.start = 60000 ∧ last.state = .undetermined ∧ last.Receives 1 ∧
      (∃ later : List Call, (∀ call ∈ later, Timestamp.InRange call.time) ∧
        (last.run later).state ≠ .undetermined) ∧
      ¬ b.Receives 0 := by
  intro c d s a b last
  have h : create c s 119999 = .ok a := by decide +kernel
  have h' : create d s 60000 = .ok b := by decide +kernel
  obtain ⟨-, hlong, -⟩ := receives_slots h (by decide +kernel) (by decide)
    [.sample (0 / 0) 59999, .evaluate 200000]
  obtain ⟨hall, hleave⟩ := hlong fun _ => by decide
  obtain ⟨-, -, hshort⟩ := receives_slots h' (by decide +kernel) (by decide) []
  exact ⟨h, h', by decide +kernel, by decide +kernel, hall 1 (by decide),
    hleave (by decide +kernel) (by decide +kernel), hshort rfl (by decide)⟩

/-- A condition over ten seconds, under checked settings with the resolution of minutes: the view of
a fresh sub-alarm lies within one minute, and no sample is ever taken into it. -/
theorem starved_view :
    let c : Condition := ⟨.max, .named "cpu", .gt, 90, 10, 1, false⟩
    let s : Settings := ⟨2, 10, .minutes, "info"⟩
    let a : SubAlarm := ⟨c, ⟨.minutes, 10000, 1, 30000, Window.freshSlots .max 50000 10000 3, 0,
      60000, 60000, 80000⟩, 10000, .undetermined⟩
    Condition.compile "max(cpu, 10) > 90.0" = .ok c ∧ s.check = .ok () ∧
      create c s 60000 = .ok a ∧ ¬ ∀ i < a.window.slots.size, a.Receives i := by
  intro c s a
  have h : create c s 60000 = .ok a := by decide +kernel
  have hprintable : c.Printable := ⟨⟨by decide, nofun, nofun⟩, by decide +kernel⟩
  have htext : "max(cpu, 10) > 90.0" = c.text := by decide +kernel
  refine ⟨htext ▸ hprintable.compile, by decide +kernel, h, ?_⟩
  intro hall
  exact not_receives_newest h (by decide) rfl (by decide) (hall 0 (by decide +kernel))

end SubAlarm

end MetricAlarm
