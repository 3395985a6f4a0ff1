import MetricAlarm.Proofs.Alarm.Independence

/-!
# Asking again

Once a monitor has been evaluated, no sub-alarm is due again up to that time, whatever the delay is
to the width of its slots. So an evaluation at the same time or an earlier one, after any number of
samples, repeats the answer and does nothing else. Main statements: `Settled.evaluate` and
`evaluate_again`.
-/

namespace MetricAlarm

/-- After an evaluation that leaves room for one more slot, a sub-alarm is not due again up to its
time. -/
theorem SubAlarm.Sound.isDue_evaluate {c : Condition} {s : Settings} {a : SubAlarm}
    (h : Sound c s a) (hdelay : 0 ≤ s.minDelay) {now : Int} (hnow : Timestamp.InRange now)
    (hend : a.isDue now = true → 0 ≤ a.window.windowEnd)
    (hroom : (a.evaluate now).window.HasRoom 1) : (a.evaluate now).isDue now = false := by
  have hwindow : (a.evaluate now).window = a.window.slideTo now a.minDelay :=
    a.window_after (.evaluate now)
  have hsame : (a.evaluate now).minDelay = a.minDelay := (a.frame_after (.evaluate now)).2
  rw [hwindow] at hroom
  rw [isDue, hwindow, hsame]
  rw [← h.minDelay_eq] at hdelay
  exact h.regular.isDue_slideTo h.bounded hdelay hnow hend hroom (Int.le_refl now)

namespace Monitor

variable {e : Expression} {m : Monitor}

theorem offer_eq (metric : Metric) (value : Float) (timestamp : Int) (a : SubAlarm) :
    ∃ slots, (offer metric value timestamp a).getD a =
      { a with window := { a.window with slots := slots } } := by
  unfold offer
  split
  · exact a.after_sample_eq value timestamp
  · exact ⟨a.window.slots, rfl⟩

/-- The monitor after samples that arrive one after the other. -/
def addSamples (m : Monitor) (samples : List (Metric × Sample)) : Monitor :=
  samples.foldl (fun m x => m.addSample x.1 x.2.1 x.2.2) m

/-! ## Settled monitors -/

/-- Up to a time there is nothing to judge, and the state is what the sub-alarms come to. -/
structure Settled (now : Int) (m : Monitor) : Prop where
  rested : ∀ a ∈ m.subAlarms, a.isDue now = false
  combined : combine m.expression m.subAlarms = .ok m.state

/-- The outcome depends on the states of the conditions only. -/
theorem combine_congr (e : Expression) {as bs : List SubAlarm}
    (h : as.map (fun a => (a.condition, a.state)) = bs.map fun a => (a.condition, a.state)) :
    combine e as = combine e bs := by
  have halarms : alarms as = alarms bs := by
    have := congrArg (List.map fun x => (x.1, x.2 == AlarmState.alarm)) h
    simpa [alarms, Function.comp_def] using this
  have hopen : as.any (·.state == .undetermined) = bs.any (·.state == .undetermined) := by
    have := congrArg (List.any · fun x => x.2 == AlarmState.undetermined) h
    simpa [Function.comp_def] using this
  rw [combine, combine, halarms, hopen]

theorem Settled.addSample {now : Int} (h : Settled now m) (metric : Metric) (value : Float)
    (timestamp : Int) : Settled now (m.addSample metric value timestamp) := by
  constructor
  case rested =>
    intro a' ha'
    obtain ⟨a, ha, rfl⟩ := List.mem_map.1 ha'
    obtain ⟨slots, hslots⟩ := offer_eq metric value timestamp a
    rw [hslots]
    exact h.rested a ha
  case combined =>
    refine (combine_congr _ ?_).trans h.combined
    rw [Monitor.addSample, List.map_map]
    refine List.map_congr_left fun a _ => ?_
    obtain ⟨slots, hslots⟩ := offer_eq metric value timestamp a
    rw [Function.comp_apply, hslots]

theorem Settled.addSamples {now : Int} (h : Settled now m) (samples : List (Metric × Sample)) :
    Settled now (m.addSamples samples) := by
  induction samples generalizing m with
  | nil => exact h
  | cons x samples ih => exact ih (h.addSample x.1 x.2.1 x.2.2)

theorem state_addSamples (m : Monitor) (samples : List (Metric × Sample)) :
    (m.addSamples samples).state = m.state := by
  induction samples generalizing m with
  | nil => rfl
  | cons x samples ih => exact ih _

/-- A settled monitor repeats its state, logs nothing and stays as it is. -/
theorem Settled.evaluate {now now' : Int} (h : Settled now m) (hle : now' ≤ now) :
    m.evaluate now' = ⟨m, .ok m.state, []⟩ := by
  have hrested : ∀ a ∈ m.subAlarms, a.isDue now' = false := fun a ha =>
    Window.isDue_of_le hle (h.rested a ha)
  have hsame : m.subAlarms.map (·.evaluate now') = m.subAlarms := by
    refine (List.map_congr_left fun a ha => ?_).trans (List.map_id _)
    exact SubAlarm.evaluate_of_not_due (hrested a ha)
  have hmoves : m.subAlarms.filterMap (·.moveTo? now') = [] := by
    refine List.filterMap_eq_nil_iff.2 fun a ha => ?_
    have hnot : a.window.isDue now' a.minDelay = false := hrested a ha
    simp [SubAlarm.moveTo?, Window.moveTo?, hnot]
  unfold Monitor.evaluate
  simp only [hsame, hmoves, h.combined, if_true, List.map_nil, List.append_nil]

/-! ## After an evaluation -/

theorem combine_of_outcome {now : Int} {state : AlarmState} (h : (m.evaluate now).outcome = .ok state) :
    combine (m.evaluate now).monitor.expression (m.evaluate now).monitor.subAlarms = .ok state ∧
      (m.evaluate now).monitor.state = state := by
  unfold Monitor.evaluate at h ⊢
  dsimp only at h ⊢
  split at h
  · cases h
  · next hc =>
    cases h
    simp only [hc, and_self]

theorem sound_of_mem {severity : Severity} {s : Settings} {viewEnd : Int}
    (h : create e severity s viewEnd = .ok m) (calls : List Call) {a : SubAlarm}
    (ha : a ∈ (m.run calls).subAlarms) : ∃ c, SubAlarm.Sound c s a := by
  rw [subAlarms_run] at ha
  obtain ⟨b, hb, rfl⟩ := List.mem_map.1 ha
  exact ⟨b.condition, SubAlarm.sound_run ((create_eq_ok h).2.2.2 b hb) _⟩

theorem settled_evaluate {s : Settings} (hdelay : 0 ≤ s.minDelay)
    (hsound : ∀ a ∈ m.subAlarms, ∃ c, SubAlarm.Sound c s a) {now : Int}
    (hnow : Timestamp.InRange now)
    (hend : ∀ a ∈ m.subAlarms, a.isDue now = true → 0 ≤ a.window.windowEnd)
    (hroom : ∀ a ∈ (m.evaluate now).monitor.subAlarms, a.window.HasRoom 1) {state : AlarmState}
    (hout : (m.evaluate now).outcome = .ok state) : Settled now (m.evaluate now).monitor := by
  obtain ⟨hcombine, hstate⟩ := combine_of_outcome hout
  refine ⟨fun a' ha' => ?_, hstate ▸ hcombine⟩
  have hroom := hroom a' ha'
  rw [subAlarms_evaluate] at ha'
  obtain ⟨a, ha, rfl⟩ := List.mem_map.1 ha'
  obtain ⟨c, hc⟩ := hsound a ha
  exact hc.isDue_evaluate hdelay hnow (hend a ha) hroom

/-- After an evaluation that leaves every window room for one more slot, an evaluation at that time
or before gives the same state, changes nothing and logs nothing, whatever samples came in between
and however long the delay is. A window that the first evaluation moves must not end before zero:
how much room is left would else be no timestamp. -/
theorem evaluate_again {severity : Severity} {s : Settings} {viewEnd : Int}
    (hm : create e severity s viewEnd = .ok m) (hdelay : 0 ≤ s.minDelay) (calls : List Call)
    {now : Int} (hnow : Timestamp.InRange now)
    (hend : ∀ a ∈ (m.run calls).subAlarms, a.isDue now = true → 0 ≤ a.window.windowEnd)
    {state : AlarmState} (hout : ((m.run calls).evaluate now).outcome = .ok state)
    (hroom : ∀ a ∈ ((m.run calls).evaluate now).monitor.subAlarms,
      a.window.windowEnd + a.window.slotWidth ≤ Timestamp.greatest)
    (samples : List (Metric × Sample)) {now' : Int} (hle : now' ≤ now) :
    let later := ((m.run calls).evaluate now).monitor.addSamples samples
    later.evaluate now' = ⟨later, .ok state, []⟩ := by
  have hsettled := settled_evaluate hdelay (fun a ha => sound_of_mem hm calls ha) hnow hend
    (fun a ha => by simpa [Window.HasRoom] using hroom a ha) hout
  have hstate := (combine_of_outcome hout).2
  rw [← state_addSamples _ samples] at hstate
  rw [← hstate]
  exact (hsettled.addSamples samples).evaluate hle

/-- A delay that is longer than the slots of one condition and shorter than those of the other. The
samples that come in between would clear the alarm if it were judged again. -/
theorem evaluate_again_both_delays :
    let cpu : Condition := ⟨.max, .named "cpu", .gt, 90, 60, 1, false⟩
    let mem : Condition := ⟨.avg, .named "mem", .gt, 80, 300, 1, false⟩
    let e : Expression := ⟨"both", [.condition cpu, .condition mem, .join .and]⟩
    let calls : List Call := [.sample (.named "cpu") 95 250, .sample (.named "mem") 99 100]
    ∃ m, create e .high ⟨2, 150, .absolute, "info"⟩ 300 = .ok m ∧
      let first := (m.run calls).evaluate 700
      let later := first.monitor.addSamples [(.named "cpu", 10, 610), (.named "mem", 5, 400)]
      first.events.length = 3 ∧ later.evaluate 690 = ⟨later, .ok .alarm, []⟩ := by
  intro cpu mem e calls
  have hcheck : (create e .high ⟨2, 150, .absolute, "info"⟩ 300).toOption.any (fun m => decide
      ((∀ a ∈ (m.run calls).subAlarms, a.isDue 700 = true → 0 ≤ a.window.windowEnd) ∧
        ((m.run calls).evaluate 700).outcome = .ok .alarm ∧
        (∀ a ∈ ((m.run calls).evaluate 700).monitor.subAlarms,
          a.window.windowEnd + a.window.slotWidth ≤ Timestamp.greatest) ∧
        ((m.run calls).evaluate 700).events.length = 3)) = true := by
    decide +kernel
  cases hm : create e .high ⟨2, 150, .absolute, "info"⟩ 300 with
  | error fault => rw [hm] at hcheck; cases hcheck
  | ok m =>
    rw [hm] at hcheck
    obtain ⟨hend, hout, hroom, hevents⟩ := of_decide_eq_true hcheck
    exact ⟨m, rfl, hevents, evaluate_again hm (by decide) calls (by decide) hend hout hroom
      [(.named "cpu", 10, 610), (.named "mem", 5, 400)] (by decide)⟩

end Monitor

end MetricAlarm
