import MetricAlarm.Proofs.Alarm.Independence
import MetricAlarm.Proofs.Condition.RoundTrip

/-!
# The log of a run

What a monitor does can be read off its log: which windows an evaluation moved and how far, and
every change of the state. `Slides` and `Replays` say what the log of an evaluation and of a run has
to be, given the states before and after; `Leads` says that changes of the state follow one another.
Main statements: `Watches.replays`, by induction on the calls, and `log_replays`.
-/

namespace MetricAlarm

theorem Expression.text_of_compile {text : String} {e : Expression} (h : compile text = .ok e) :
    e.text = text := by
  obtain ⟨f, -, rfl⟩ := exists_formula_of_compile h
  rfl

/-- A compiled expression is logged once, with its text and the length of its program. -/
theorem Expression.events_of_compile {text : String} {e : Expression} (h : compile text = .ok e) :
    events text = [.compiled text e.program.length] := by
  rw [events, h]
  dsimp only
  rw [text_of_compile h]

namespace Window

/-- The move that is logged is the one that is made. -/
theorem moveTo?_eq (w : Window) (t d : Int) : w.moveTo? t d =
    if w.slotsMoved t d = 0 then none
    else some ⟨(w.slideTo t d).viewEnd, (w.slideTo t d).windowEnd, w.slotsMoved t d⟩ := by
  unfold moveTo? slotsMoved
  cases w.isDue t d with
  | false => simp
  | true =>
    by_cases hn : 0 < w.slotsToAdvance t d
    · have hmoved : (w.slotsToAdvance t d).toNat ≠ 0 := by omega
      simp [hn, hmoved, Int.toNat_of_nonneg (Int.le_of_lt hn)]
    · have hmoved : (w.slotsToAdvance t d).toNat = 0 := by omega
      simp [hn, hmoved]

end Window

namespace Monitor

/-- What the calls of a run log, one after the other. -/
def log (m : Monitor) : List Call → List Log.Event
  | [] => []
  | .sample metric value timestamp :: calls => log (m.addSample metric value timestamp) calls
  | .evaluate now :: calls => (m.evaluate now).events ++ log (m.evaluate now).monitor calls

/-! ## What the log has to be -/

/-- The slides between two states of the sub-alarms, in their order: one event for each window whose
view moved, with the bounds after the move and the number of slots, and none for the others. -/
inductive Slides : List SubAlarm → List SubAlarm → List Log.Event → Prop
  | nil : Slides [] [] []
  | rests {a b : SubAlarm} {as bs : List SubAlarm} {events : List Log.Event}
      (same : b.window.viewEnd = a.window.viewEnd) (later : Slides as bs events) :
      Slides (a :: as) (b :: bs) events
  | moves {a b : SubAlarm} {as bs : List SubAlarm} {events : List Log.Event} {slots : Int}
      (moved : b.window.viewEnd ≠ a.window.viewEnd) (positive : 1 ≤ slots)
      (distance : slots * a.window.slotWidth = b.window.viewEnd - a.window.viewEnd)
      (later : Slides as bs events) :
      Slides (a :: as) (b :: bs) (.slid ⟨b.window.viewEnd, b.window.windowEnd, slots⟩ :: events)

/-- The change from one state to another, if it is one. -/
def change (text : String) (severity : Severity) (before after : AlarmState) : List Log.Event :=
  if after = before then [] else [.stateChanged text severity before after]

/-- The log of a run: nothing for a sample; for an evaluation its slides and then the change of the
state. -/
inductive Replays (text : String) (severity : Severity) :
    Monitor → List Call → List Log.Event → Prop
  | nil (m : Monitor) : Replays text severity m [] []
  | sample {m : Monitor} {metric : Metric} {value : Float} {timestamp : Int} {calls : List Call}
      {events : List Log.Event}
      (later : Replays text severity (m.addSample metric value timestamp) calls events) :
      Replays text severity m (.sample metric value timestamp :: calls) events
  | evaluate {m : Monitor} {now : Int} {calls : List Call} {slides events : List Log.Event}
      (slid : Slides m.subAlarms (m.evaluate now).monitor.subAlarms slides)
      (later : Replays text severity (m.evaluate now).monitor calls events) :
      Replays text severity m (.evaluate now :: calls)
        (slides ++ change text severity m.state (m.evaluate now).monitor.state ++ events)

/-- Changes that lead from a state to another, each from where the one before it ended to a state
that differs. -/
inductive Leads : AlarmState → List (AlarmState × AlarmState) → AlarmState → Prop
  | nil (state : AlarmState) : Leads state [] state
  | cons {before after last : AlarmState} {changes : List (AlarmState × AlarmState)}
      (differs : before ≠ after) (later : Leads after changes last) :
      Leads before ((before, after) :: changes) last

/-! ## Slides -/

theorem Slides.evaluate {as : List SubAlarm} (h : ∀ a ∈ as, ∃ kind, Window.Regular kind a.window)
    (now : Int) :
    Slides as (as.map (·.evaluate now)) ((as.filterMap (·.moveTo? now)).map .slid) := by
  induction as with
  | nil => exact .nil
  | cons a as ih =>
    obtain ⟨⟨kind, hr⟩, has⟩ := List.forall_mem_cons.1 h
    have hlater := ih has
    have hwindow : (a.evaluate now).window = a.window.slideTo now a.minDelay :=
      a.window_after (.evaluate now)
    have hview := (hr.movedBy_slideTo now a.minDelay).viewEnd_eq
    have hmove : a.moveTo? now = _ := a.window.moveTo?_eq now a.minDelay
    rw [← hwindow] at hview hmove
    generalize a.window.slotsMoved now a.minDelay = n at hview hmove
    by_cases hn : n = 0
    · rw [if_pos hn] at hmove
      simp only [List.filterMap_cons, hmove]
      refine .rests ?_ hlater
      rw [hview, hn]
      omega
    · rw [if_neg hn] at hmove
      simp only [List.filterMap_cons, hmove]
      have hpos : 0 < (n : Int) * a.window.slotWidth := Int.mul_pos (by omega) hr.width_pos
      have hdistance : n * a.window.slotWidth = (a.evaluate now).window.viewEnd - a.window.viewEnd := by
        omega
      have hmoved : (a.evaluate now).window.viewEnd ≠ a.window.viewEnd := by omega
      exact .moves hmoved (by omega) hdistance hlater

theorem Slides.level {as bs : List SubAlarm} {events : List Log.Event} (h : Slides as bs events) :
    ∀ event ∈ events, event.record.level = .trace := by
  induction h with
  | nil => exact fun event he => absurd he List.not_mem_nil
  | rests _ _ ih => exact ih
  | moves _ _ _ _ ih => exact List.forall_mem_cons.2 ⟨rfl, ih⟩

/-! ## Evaluations and runs -/

theorem events_evaluate (m : Monitor) (now : Int) : (m.evaluate now).events =
    (m.subAlarms.filterMap (·.moveTo? now)).map .slid ++
      change m.expression.text m.severity m.state (m.evaluate now).monitor.state := by
  unfold Monitor.evaluate
  dsimp only
  split
  · simp [change]
  · rfl

theorem severity_after (m : Monitor) (call : Call) : (m.after call).severity = m.severity := by
  cases call with
  | sample metric value timestamp => rfl
  | evaluate now =>
    unfold after Monitor.evaluate
    dsimp only
    split <;> rfl

theorem severity_create {e : Expression} {severity : Severity} {s : Settings} {viewEnd : Int}
    {m : Monitor} (h : create e severity s viewEnd = .ok m) : m.severity = severity := by
  obtain ⟨as, -, rfl⟩ := Grammar.map_eq_ok h
  rfl

/-- A monitor of an expression and a severity, whatever it has seen. -/
structure Watches (e : Expression) (severity : Severity) (m : Monitor) : Prop where
  aligned : Aligned e m
  severity_eq : m.severity = severity
  regular : ∀ a ∈ m.subAlarms, ∃ kind, Window.Regular kind a.window

variable {e : Expression} {severity : Severity} {m : Monitor}

theorem watches_create {s : Settings} {viewEnd : Int} (h : create e severity s viewEnd = .ok m) :
    Watches e severity m := by
  refine ⟨aligned_create h, severity_create h, fun a ha => ?_⟩
  exact ⟨_, (SubAlarm.sound_create ((create_eq_ok h).2.2.2 a ha)).regular⟩

theorem Watches.after (h : Watches e severity m) (call : Call) :
    Watches e severity (m.after call) := by
  refine ⟨h.aligned.after call, (m.severity_after call).trans h.severity_eq, fun b hb => ?_⟩
  rw [subAlarms_after] at hb
  obtain ⟨a, ha, rfl⟩ := List.mem_map.1 hb
  obtain ⟨kind, hr⟩ := h.regular a ha
  refine ⟨kind, ?_⟩
  rw [SubAlarm.window_run]
  exact hr.run _

/-- The log is what it has to be. -/
theorem Watches.replays (h : Watches e severity m) (calls : List Call) :
    Replays e.text severity m calls (m.log calls) := by
  induction calls generalizing m with
  | nil => exact .nil m
  | cons call calls ih =>
    have hlater := ih (h.after call)
    cases call with
    | sample metric value timestamp => exact .sample hlater
    | evaluate now =>
      have hslides := Slides.evaluate h.regular now
      rw [← subAlarms_evaluate] at hslides
      rw [log, events_evaluate, h.aligned.expression, h.severity_eq]
      exact .evaluate hslides hlater

/-- A log that replays a run has the changes of the state on the way, with the text of the
expression and the severity. -/
theorem Replays.leads {text : String} {calls : List Call} {events : List Log.Event}
    (h : Replays text severity m calls events) : ∃ changes : List (AlarmState × AlarmState),
      events.filter (·.record.level = .info) =
        changes.map (fun c => .stateChanged text severity c.1 c.2) ∧
      Leads m.state changes (m.run calls).state := by
  induction h with
  | nil m => exact ⟨[], rfl, .nil m.state⟩
  | sample _ ih => exact ih
  | @evaluate m now calls slides events slid _ ih =>
    obtain ⟨changes, hchanges, hleads⟩ := ih
    have hslides : slides.filter (·.record.level = .info) = [] := by
      refine List.filter_eq_nil_iff.2 fun event he => ?_
      rw [slid.level event he]
      decide
    rw [List.filter_append, List.filter_append, hslides, hchanges, change]
    by_cases hsame : (m.evaluate now).monitor.state = m.state
    · rw [hsame] at hleads
      rw [if_pos hsame]
      exact ⟨changes, rfl, hleads⟩
    · rw [if_neg hsame]
      exact ⟨_ :: changes, rfl, .cons (Ne.symm hsame) hleads⟩

theorem Replays.level {text : String} {calls : List Call} {events : List Log.Event}
    (h : Replays text severity m calls events) :
    ∀ event ∈ events, event.record.level = .trace ∨ event.record.level = .info := by
  induction h with
  | nil m => exact fun event he => absurd he List.not_mem_nil
  | sample _ ih => exact ih
  | evaluate slid _ ih =>
    intro event he
    rw [List.mem_append, List.mem_append] at he
    rcases he with (he | he) | he
    · exact .inl (slid.level event he)
    · unfold change at he
      split at he
      · exact absurd he List.not_mem_nil
      · rw [List.mem_singleton.1 he]
        exact .inr rfl
    · exact ih event he

/-- The log of a text that compiles and of a run of its monitor: that it was compiled, then for each
evaluation the slides of the windows that moved, in the order of the conditions, and the change of
the state, if it changed. Nothing else is logged for debugging, and what is logged at the level of
information leads from the undetermined state to the last one. -/
theorem log_replays {text : String} {s : Settings} {viewEnd : Int}
    (he : Expression.compile text = .ok e) (hm : create e severity s viewEnd = .ok m)
    (calls : List Call) :
    let compiled : Log.Event := .compiled text e.program.length
    let events := Expression.events text ++ m.log calls
    events = compiled :: m.log calls ∧
      Replays text severity m calls (m.log calls) ∧
      events.filter (·.record.level = .debug) = [compiled] ∧
      ∃ changes : List (AlarmState × AlarmState),
        events.filter (·.record.level = .info) =
          changes.map (fun c => .stateChanged text severity c.1 c.2) ∧
        Leads .undetermined changes (m.run calls).state := by
  intro compiled events
  have hevents : events = compiled :: m.log calls :=
    congrArg (· ++ m.log calls) (Expression.events_of_compile he)
  have hreplays := (watches_create hm).replays calls
  rw [Expression.text_of_compile he] at hreplays
  refine ⟨hevents, hreplays, ?_, ?_⟩
  · have hrest : (m.log calls).filter (·.record.level = .debug) = [] := by
      refine List.filter_eq_nil_iff.2 fun event hmem => ?_
      rcases hreplays.level event hmem with h | h <;> rw [h] <;> decide
    rw [hevents, List.filter_cons_of_pos rfl, hrest]
  · rw [hevents, ← state_create hm]
    exact hreplays.leads

/-- An alarm and its recovery: of four evaluations the first raises the alarm, the second comes too
early and logs nothing, the third clears it, and the last slides over three periods without data. -/
theorem log_replays_recovery :
    let c : Condition := ⟨.max, .named "cpu", .gt, 90, 60, 1, false⟩
    let e : Expression := ⟨c.text, [.condition c]⟩
    let calls : List Call := [.sample (.named "cpu") 95 30, .evaluate 75, .evaluate 76,
      .sample (.named "cpu") 10 90, .evaluate 131, .evaluate 320]
    let changed : AlarmState → AlarmState → Log.Event := .stateChanged c.text .high
    let events : List Log.Event := [
      .slid ⟨120, 240, 1⟩, changed .undetermined .alarm,
      .slid ⟨180, 300, 1⟩, changed .alarm .ok,
      .slid ⟨360, 480, 3⟩, changed .ok .undetermined]
    ∃ m, Expression.compile c.text = .ok e ∧ create e .high .default 60 = .ok m ∧
      Expression.events c.text ++ m.log calls = .compiled c.text 1 :: events ∧
      Replays c.text .high m calls events ∧
      ∃ changes, Leads .undetermined changes (m.run calls).state ∧ changes.length = 3 := by
  intro c e calls changed events
  have hc : c.Printable := ⟨⟨by decide, nofun, nofun⟩, by decide +kernel⟩
  have hcheck : (create e .high .default 60).toOption.any
      (fun m => decide (m.log calls = events)) = true := by
    decide +kernel
  cases hm : create e .high .default 60 with
  | error fault => rw [hm] at hcheck; cases hcheck
  | ok m =>
    rw [hm] at hcheck
    have hlog : m.log calls = events := of_decide_eq_true hcheck
    obtain ⟨hall, hreplays, -, changes, hinfo, hleads⟩ := log_replays hc.compile_expression hm calls
    rw [hall, hlog] at hinfo
    refine ⟨m, hc.compile_expression, rfl, ?_, hlog ▸ hreplays, changes, hleads, ?_⟩
    · rw [hall, hlog]
      rfl
    · have hlength := congrArg List.length hinfo
      rw [List.length_map] at hlength
      exact hlength.symm

end Monitor

end MetricAlarm
