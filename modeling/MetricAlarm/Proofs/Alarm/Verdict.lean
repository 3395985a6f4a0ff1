import Mathlib.Order.Interval.Finset.Nat
import MetricAlarm.Proofs.Alarm.Run
import MetricAlarm.Proofs.Window.Consistency

/-!
# Verdicts on periods

A sub-alarm keeps its samples in the slots of a ring and judges the slots of the view. What it says
can be told without the ring: the samples that it took are sorted into periods that are counted
back from the end of the view, and the values of the last periods decide. Main statement:
`evaluate_verdict`.
-/

namespace MetricAlarm

namespace SubAlarm

/-! ## The specification -/

/-- The value of the `k`-th period in front of `viewEnd`. -/
def periodValue (f : Aggregate) (r : Resolution) (viewEnd width : Int) (samples : List Sample)
    (k : Nat) : Float :=
  f.statistic.aggregate
    (samplesWithin r (viewEnd - k * width) (viewEnd - ((k : Int) - 1) * width) samples)

/-- The verdict on the values of the last periods: one that does not breach clears the alarm; else
the alarm is raised if every period has a value. Without any value it is up to the condition. -/
def judge (c : Condition) (value : Nat → Float) : AlarmState :=
  let periods := Finset.Icc 1 c.periods.toNat
  if ∃ k ∈ periods, (value k).isNaN = false ∧ c.breachedBy (value k) = false then .ok
  else if ∀ k ∈ periods, (value k).isNaN = false then .alarm
  else if (∀ k ∈ periods, (value k).isNaN = true) ∧ c.deterministic = true then .ok
  else .undetermined

/-- The two flags of the verdict on a list come down to what holds of some or all of its values. -/
theorem verdict_eq (c : Condition) {values : List Float} (hne : values ≠ []) :
    verdict c values =
      if ∃ x ∈ values, x.isNaN = false ∧ c.breachedBy x = false then .ok
      else if ∀ x ∈ values, x.isNaN = false then .alarm
      else if (∀ x ∈ values, x.isNaN = true) ∧ c.deterministic = true then .ok
      else .undetermined := by
  have hclear : (values.any fun x => !x.isNaN && !c.breachedBy x) = true ↔
      ∃ x ∈ values, x.isNaN = false ∧ c.breachedBy x = false := by
    simp only [List.any_eq_true, Bool.and_eq_true, Bool.not_eq_true']
  have hfull : values.any (·.isNaN) = false ↔ ∀ x ∈ values, x.isNaN = false := by
    simp only [List.any_eq_false, Bool.not_eq_true]
  have hempty : values.any (!·.isNaN) = false ↔ ∀ x ∈ values, x.isNaN = true := by
    simp only [List.any_eq_false, Bool.not_eq_true, Bool.not_eq_false']
  have hsome : values.any (·.isNaN) = false → values.any (!·.isNaN) = true := by
    intro h
    obtain ⟨x, xs, rfl⟩ := List.exists_cons_of_ne_nil hne
    simp only [List.any_cons, hfull.1 h x List.mem_cons_self, Bool.not_false, Bool.true_or]
  unfold verdict
  simp only [hclear, ← hfull, ← hempty, Bool.and_eq_true, Bool.not_eq_true']
  split
  · rfl
  · cases h : values.any (·.isNaN) with
    | false => simp only [hsome h, and_self, if_true]
    | true => simp only [Bool.true_eq_false, and_false, if_false]

/-- A list from the `n`-th value down to the first. -/
theorem mem_periods {α : Type} (value : Nat → α) (n : Nat) (x : α) :
    x ∈ (List.range n).map (fun i => value (n - i)) ↔ ∃ k ∈ Finset.Icc 1 n, value k = x := by
  simp only [List.mem_map, List.mem_range, Finset.mem_Icc]
  constructor
  · rintro ⟨i, hi, rfl⟩
    exact ⟨n - i, ⟨by omega, by omega⟩, rfl⟩
  · rintro ⟨k, ⟨hl, hu⟩, rfl⟩
    exact ⟨n - k, by omega, congrArg value (by omega)⟩

/-- The view lists the periods from the oldest to the newest; their order does not count. -/
theorem verdict_periods (c : Condition) (value : Nat → Float) (hn : 0 < c.periods.toNat) :
    verdict c ((List.range c.periods.toNat).map fun i => value (c.periods.toNat - i)) =
      judge c value := by
  have hne : (List.range c.periods.toNat).map (fun i => value (c.periods.toNat - i)) ≠ [] := by
    rw [← List.length_pos_iff, List.length_map, List.length_range]
    exact hn
  have hmem := mem_periods value c.periods.toNat
  rw [verdict_eq c hne]
  generalize (List.range c.periods.toNat).map (fun i => value (c.periods.toNat - i)) = values
    at hmem
  have hexists : ∀ p : Float → Prop, (∃ x ∈ values, p x) ↔
      ∃ k ∈ Finset.Icc 1 c.periods.toNat, p (value k) := by
    intro p
    constructor
    · rintro ⟨x, hx, hp⟩
      obtain ⟨k, hk, rfl⟩ := (hmem x).1 hx
      exact ⟨k, hk, hp⟩
    · rintro ⟨k, hk, hp⟩
      exact ⟨value k, (hmem _).2 ⟨k, hk, rfl⟩, hp⟩
  have hforall : ∀ p : Float → Prop, (∀ x ∈ values, p x) ↔
      ∀ k ∈ Finset.Icc 1 c.periods.toNat, p (value k) := by
    intro p
    constructor
    · intro h k hk
      exact h _ ((hmem _).2 ⟨k, hk, rfl⟩)
    · intro h x hx
      obtain ⟨k, hk, rfl⟩ := (hmem x).1 hx
      exact h k hk
  simp only [judge, hexists, hforall]

/-! ## Evaluations -/

/-- The samples of the `k`-th period in front of `viewEnd`. -/
def periodSamples (r : Resolution) (viewEnd width : Int) (samples : List Sample) (k : Nat) :
    List Sample :=
  samplesWithin r (viewEnd - k * width) (viewEnd - ((k : Int) - 1) * width) samples

/-- After a run, the slots of the view hold the samples of the last periods. -/
theorem viewSlot_run {c : Condition} {s : Settings} {viewEnd : Int} {a : SubAlarm}
    (h : create c s viewEnd = .ok a) (calls : List Call) {i : Nat} (hi : i < c.periods.toNat) :
    (a.run calls).window.contents[i]? = some
      ⟨(a.run calls).window.viewEnd - (c.periods.toNat - i : Nat) * slotWidth c s,
        c.function.statistic.collect (periodSamples s.resolution (a.run calls).window.viewEnd
          (slotWidth c s) (a.taken calls) (c.periods.toNat - i))⟩ := by
  obtain ⟨w, hw, rfl⟩ := exists_window_of_create h
  let last := w.run (calls.map (·.onWindow s.minDelay))
  have hr := Window.regular_create hw
  have hlast : Window.Regular _ last := hr.run _
  have hshows : Window.Shows _ _ last := (Window.shows_create hw).run hr _
  obtain ⟨-, hv, hwidth, hres⟩ := Window.frame_create hw
  obtain ⟨-, hv', hwidth', -⟩ := hr.frame_run (calls.map (·.onWindow s.minDelay))
  have hview : last.viewSlots = c.periods.toNat := hv'.trans hv
  have hwidth : w.slotWidth = slotWidth c s := hwidth
  have hslot : last.slotWidth = slotWidth c s := hwidth'.trans hwidth
  have hend := hlast.viewEnd_eq_start
  rw [hview, hslot] at hend
  -- The slots are numbered from the oldest on, the periods from the end of the view back.
  have hk : ((c.periods.toNat - i : Nat) : Int) = c.periods.toNat - i := Int.ofNat_sub (by omega)
  have hlower : last.start + i * last.slotWidth =
      last.viewEnd - (c.periods.toNat - i : Nat) * slotWidth c s := by
    rw [hend, hslot, hk, Int.sub_mul]
    omega
  have hupper : last.start + i * last.slotWidth + w.slotWidth =
      last.viewEnd - (((c.periods.toNat - i : Nat) : Int) - 1) * slotWidth c s := by
    rw [hlower, hwidth, Int.sub_mul, Int.one_mul]
    omega
  have hhistory := history_eq (a := ⟨c, w, s.minDelay, .undetermined⟩) hr
    (last.start + i * last.slotWidth) calls
  have hlt : i < last.slots.size := lt_of_lt_of_le (hview ▸ hi) hlast.view_le
  rw [window_run]
  change last.contents[i]? = _
  rw [hshows.contents_eq]
  simp only [List.getElem?_map, List.getElem?_range hlt, Option.map_some, Window.slotOf,
    List.nil_append, hhistory, hupper, hres]
  rw [hlower]
  rfl

/-- After a run, the view holds the values of the last periods. -/
theorem viewValues_run {c : Condition} {s : Settings} {viewEnd : Int} {a : SubAlarm}
    (h : create c s viewEnd = .ok a) (calls : List Call) :
    (a.run calls).window.viewValues = (List.range c.periods.toNat).map fun i =>
      periodValue c.function s.resolution (a.run calls).window.viewEnd
        (shape c s viewEnd).slotWidth (a.taken calls) (c.periods.toNat - i) := by
  rw [Window.viewValues, (sound_run h calls).viewSlots_eq]
  apply List.map_congr_left
  intro i hi
  rw [Window.valueAt_physical _ (viewSlot_run h calls (List.mem_range.1 hi)),
    Statistic.value_collect]
  rfl

/-- A sub-alarm whose view has rested for the delay judges the last periods by the samples that it
took, whatever happened before; in every other case an evaluation changes nothing. -/
theorem evaluate_verdict {c : Condition} {s : Settings} {viewEnd : Int} {a : SubAlarm}
    (h : create c s viewEnd = .ok a) (hdelay : 0 ≤ s.minDelay) (calls : List Call) (now : Int)
    (hnow : Timestamp.InRange now) :
    let last := a.run calls
    let width := (c.period.toNat : Int) * s.resolution.perSecond
    let value := periodValue c.function s.resolution last.window.viewEnd width (a.taken calls)
    (last.window.viewEnd + s.minDelay < now → (last.evaluate now).state = judge c value) ∧
      (now ≤ last.window.viewEnd + s.minDelay → last.evaluate now = last) := by
  obtain ⟨w, hw, ha⟩ := exists_window_of_create h
  have hpos : 0 < c.periods.toNat := by
    obtain ⟨-, hview, -⟩ := Window.create_eq_ok hw
    exact hview
  obtain ⟨hc, hd⟩ := a.frame_run calls
  have hleast : Timestamp.least ≤ (a.run calls).window.viewEnd := by
    rw [window_run, ha]
    exact Window.least_le_viewEnd_run hw _
  have hdue : (a.run calls).isDue now = true ↔
      (a.run calls).window.viewEnd + s.minDelay < now := by
    rw [isDue, hd, ha]
    rw [ha] at hleast
    exact Window.isDue_iff hdelay hleast hnow
  have hcondition : (a.run calls).condition = c := by
    rw [hc, ha]
  constructor
  · intro hlt
    rw [evaluate, if_pos (hdue.2 hlt)]
    change verdict (a.run calls).condition (a.run calls).window.viewValues = _
    rw [hcondition, viewValues_run h]
    exact verdict_periods c _ hpos
  · intro hle
    apply evaluate_of_not_due
    rw [← Bool.not_eq_true, hdue]
    omega

/-- The second view: a sample that came early is seen, and one that comes late is dropped. Both
periods breach. -/
theorem evaluate_verdict_second_view :
    let c : Condition := ⟨.max, .named "cpu", .gt, 90, 60, 2, false⟩
    let calls : List Call := [.sample 95 30, .sample 99 150, .sample 97 70, .evaluate 131,
      .sample 20 59, .evaluate 190]
    ∃ a, create c .default 120 = .ok a ∧
      a.taken calls = [(95, 30), (99, 150), (97, 70)] ∧
      (a.run calls).window.viewEnd = 180 ∧
      ((a.run calls).evaluate 191).state =
        judge c (periodValue .max .absolute 180 60 [(95, 30), (99, 150), (97, 70)]) ∧
      ((a.run calls).evaluate 191).state = .alarm ∧
      (a.run calls).evaluate 190 = a.run calls := by
  intro c calls
  have h : create ⟨.max, .named "cpu", .gt, 90, 60, 2, false⟩ .default 120 = .ok _ := rfl
  have hlater := evaluate_verdict h (by decide) calls 191 (by decide)
  have hearlier := evaluate_verdict h (by decide) calls 190 (by decide)
  have hjudged := hlater.1 (by decide +kernel)
  refine ⟨_, h, by decide +kernel, by decide +kernel, ?_, ?_, hearlier.2 (by decide +kernel)⟩
  · exact hjudged.trans (by decide +kernel)
  · exact hjudged.trans (by decide +kernel)

end SubAlarm

end MetricAlarm
