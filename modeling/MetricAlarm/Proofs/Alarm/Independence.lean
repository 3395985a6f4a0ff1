import MetricAlarm.Proofs.Alarm.Monitor

/-!
# Sub-alarms do not know of each other

A monitor hands its calls on to all of its sub-alarms. Each of them is at any time where it would be
if it stood alone and got only its share of the calls: the samples that its metric selects and every
evaluation. Main statements: `subAlarms_run`, and `independent`, which adds when a monitor can be
made and how many sub-alarms take a sample.
-/

namespace MetricAlarm

section

variable {α β ε : Type} {f : α → Except ε β}

/-- All results are there when each is. -/
theorem exists_mapM_eq_ok_iff {xs : List α} :
    (∃ ys, xs.mapM f = .ok ys) ↔ ∀ x ∈ xs, ∃ y, f x = .ok y := by
  induction xs with
  | nil => simp [pure, Except.pure]
  | cons x xs ih =>
    rw [List.forall_mem_cons, ← ih, List.mapM_cons]
    constructor
    · rintro ⟨ys, h⟩
      obtain ⟨y, hy, h⟩ := Grammar.bind_eq_ok h
      obtain ⟨ys', hys', -⟩ := Grammar.bind_eq_ok h
      exact ⟨⟨y, hy⟩, ⟨ys', hys'⟩⟩
    · rintro ⟨⟨y, hy⟩, ⟨ys, hys⟩⟩
      exact ⟨y :: ys, by rw [hy, hys]; rfl⟩

/-- The first element without a result decides. -/
theorem mapM_eq_error_iff {xs : List α} {fault : ε} :
    xs.mapM f = .error fault ↔ ∃ before x after, xs = before ++ x :: after ∧
      (∀ b ∈ before, ∃ y, f b = .ok y) ∧ f x = .error fault := by
  constructor
  · intro h
    induction xs with
    | nil => cases h
    | cons x xs ih =>
      rw [List.mapM_cons] at h
      cases hx : f x with
      | error other =>
        rw [hx] at h
        cases h
        exact ⟨[], x, xs, rfl, by simp, hx⟩
      | ok y =>
        rw [hx] at h
        cases hxs : xs.mapM f with
        | ok ys =>
          rw [hxs] at h
          cases h
        | error other =>
          rw [hxs] at h
          cases h
          obtain ⟨before, x', after, rfl, hbefore, hx'⟩ := ih hxs
          exact ⟨x :: before, x', after, rfl, List.forall_mem_cons.2 ⟨⟨y, hx⟩, hbefore⟩, hx'⟩
  · rintro ⟨before, x, after, rfl, hbefore, hx⟩
    induction before with
    | nil =>
      rw [List.nil_append, List.mapM_cons, hx]
      rfl
    | cons b before ih =>
      obtain ⟨⟨y, hy⟩, hbefore⟩ := List.forall_mem_cons.1 hbefore
      rw [List.cons_append, List.mapM_cons, hy, ih hbefore]
      rfl

end

namespace Monitor

/-! ## Shares -/

/-- What a call is for the sub-alarm of a condition; samples that its metric does not select do not
concern it. -/
def Call.share (c : Condition) : Call → Option SubAlarm.Call
  | .sample metric value timestamp =>
    if c.metric.selects metric then some (.sample value timestamp) else none
  | .evaluate now => some (.evaluate now)

/-- The sub-alarm of a condition that stands alone and gets its share of the calls. -/
def alone (s : Settings) (viewEnd : Int) (calls : List Call) (c : Condition) :
    Except ShapeFault SubAlarm :=
  (SubAlarm.create c s viewEnd).map fun a => a.run (calls.filterMap (Call.share c))

/-- Whether the sub-alarm that stands alone is handed a sample and takes it. -/
def takesAlone (s : Settings) (viewEnd : Int) (calls : List Call) (metric : Metric) (value : Float)
    (timestamp : Int) (c : Condition) : Bool :=
  c.metric.selects metric &&
    (alone s viewEnd calls c).toOption.any fun a => (a.insert? value timestamp).isSome

variable {e : Expression} {m : Monitor}

theorem subAlarms_after (m : Monitor) (call : Call) :
    (m.after call).subAlarms = m.subAlarms.map fun a => a.run (call.share a.condition).toList := by
  cases call with
  | evaluate now => exact subAlarms_evaluate m now
  | sample metric value timestamp =>
    refine List.map_congr_left fun a _ => ?_
    by_cases hs : a.condition.metric.selects metric = true
    · rw [offer, Call.share, if_pos hs, if_pos hs]
      rfl
    · rw [offer, Call.share, if_neg hs, if_neg hs]
      rfl

/-- Every sub-alarm of a monitor runs on its own share of the calls. -/
theorem subAlarms_run (m : Monitor) (calls : List Call) :
    (m.run calls).subAlarms =
      m.subAlarms.map fun a => a.run (calls.filterMap (Call.share a.condition)) := by
  induction calls generalizing m with
  | nil => simp [run, SubAlarm.run]
  | cons call calls ih =>
    have hrun : (m.run (call :: calls)).subAlarms = ((m.after call).run calls).subAlarms := rfl
    rw [hrun, ih, subAlarms_after, List.map_map]
    refine List.map_congr_left fun a _ => ?_
    rw [Function.comp_apply, (a.frame_run _).1]
    cases hshare : call.share a.condition with
    | none => rw [List.filterMap_cons_none hshare]; rfl
    | some c => rw [List.filterMap_cons_some hshare]; rfl

theorem alone_of_mem {severity : Severity} {s : Settings} {viewEnd : Int}
    (h : create e severity s viewEnd = .ok m) (calls : List Call) {a : SubAlarm}
    (ha : a ∈ m.subAlarms) :
    alone s viewEnd calls a.condition =
      .ok (a.run (calls.filterMap (Call.share a.condition))) := by
  rw [alone, (create_eq_ok h).2.2.2 a ha]
  rfl

theorem takers_run {severity : Severity} {s : Settings} {viewEnd : Int}
    (h : create e severity s viewEnd = .ok m) (calls : List Call) (metric : Metric) (value : Float)
    (timestamp : Int) :
    (m.run calls).takers metric value timestamp =
      e.conditions.countP (takesAlone s viewEnd calls metric value timestamp) := by
  rw [takers, subAlarms_run, ← (create_eq_ok h).2.2.1, List.countP_map, List.countP_map]
  refine List.countP_congr fun a ha => ?_
  rw [Function.comp_apply, Function.comp_apply, takesAlone, alone_of_mem h calls ha, offer,
    (a.frame_run _).1]
  cases a.condition.metric.selects metric with
  | false => simp
  | true => simp [Except.toOption]

/-- A monitor can be made exactly when each of its conditions has a sub-alarm, and otherwise reports
the fault of the first that has none. Whatever is called, the sub-alarm at each place is the one that
stands alone with its share of the calls, and a sample is counted once for each of these that is
handed it and takes it. -/
theorem independent (e : Expression) (severity : Severity) (s : Settings) (viewEnd : Int) :
    ((∃ m, create e severity s viewEnd = .ok m) ↔
      ∀ c ∈ e.conditions, ∃ a, SubAlarm.create c s viewEnd = .ok a) ∧
    (∀ fault, create e severity s viewEnd = .error fault ↔
      ∃ before c after, e.conditions = before ++ c :: after ∧
        (∀ b ∈ before, ∃ a, SubAlarm.create b s viewEnd = .ok a) ∧
        SubAlarm.create c s viewEnd = .error fault) ∧
    ∀ m, create e severity s viewEnd = .ok m → ∀ calls,
      (m.run calls).subAlarms.map .ok = e.conditions.map (alone s viewEnd calls) ∧
      ∀ metric value timestamp, (m.run calls).takers metric value timestamp =
        e.conditions.countP (takesAlone s viewEnd calls metric value timestamp) := by
  refine ⟨?_, fun fault => ?_, fun m hm calls => ⟨?_, takers_run hm calls⟩⟩
  · rw [← exists_mapM_eq_ok_iff, create]
    cases e.conditions.mapM fun c => SubAlarm.create c s viewEnd with
    | error fault => simp [Except.map]
    | ok as => simp [Except.map]
  · rw [← mapM_eq_error_iff, create]
    cases e.conditions.mapM fun c => SubAlarm.create c s viewEnd with
    | error fault => simp [Except.map]
    | ok as => simp [Except.map]
  · rw [subAlarms_run, ← (create_eq_ok hm).2.2.1, List.map_map, List.map_map]
    exact List.map_congr_left fun a ha => (alone_of_mem hm calls ha).symm

/-- Two conditions on one metric, the first for one host only: a sample of another host concerns the
second alone, and so does the next one. -/
theorem independent_hosts :
    let host : Metric := (Metric.named "cpu").withDimension "host" "a"
    let other : Metric := (Metric.named "cpu").withDimension "host" "b"
    let narrow : Condition := ⟨.max, host, .gt, 90, 60, 1, false⟩
    let wide : Condition := ⟨.avg, .named "cpu", .gt, 50, 60, 2, false⟩
    let e : Expression := ⟨"hosts", [.condition narrow, .condition wide, .join .or]⟩
    let calls : List Call := [.sample host 95 30, .sample other 20 45, .evaluate 75]
    ∃ m, create e .low .default 60 = .ok m ∧
      (m.run calls).subAlarms.map .ok = [alone .default 60 calls narrow, alone .default 60 calls wide] ∧
      (m.run calls).takers other 1 80 = 1 ∧ (m.run calls).takers host 1 80 = 2 := by
  intro host other narrow wide e calls
  have hok : (create e .low .default 60).isOk = true := by decide +kernel
  cases hm : create e .low .default 60 with
  | error fault => rw [hm] at hok; cases hok
  | ok m =>
    have h := (independent e .low .default 60).2.2 m hm calls
    exact ⟨m, rfl, h.1, (h.2 other 1 80).trans (by decide +kernel),
      (h.2 host 1 80).trans (by decide +kernel)⟩

end Monitor

end MetricAlarm
