import MetricAlarm.Alarm.Monitor
import MetricAlarm.Proofs.Alarm.Run
import MetricAlarm.Proofs.Formula.Program

/-!
# Monitors judge by place

The table of truth values of an evaluation has one entry per condition, so a condition that stands
at several places has only one value. No harm is done: sub-alarms of equal conditions are equal in
every state that a monitor reaches. Main statement: `verdicts`, an evaluation never fails, and its
outcome is that of the formula with the state of each place.
-/

namespace MetricAlarm

theorem lookup_eq_some_of_unique {α β : Type} [BEq α] [LawfulBEq α] {k : α} {v : β}
    {entries : List (α × β)} (hmem : (k, v) ∈ entries) (hu : ∀ w, (k, w) ∈ entries → w = v) :
    entries.lookup k = some v := by
  induction entries with
  | nil => cases hmem
  | cons e entries ih =>
    obtain ⟨k', v'⟩ := e
    rw [List.lookup_cons]
    by_cases hk : k = k'
    · subst hk
      obtain rfl := hu v' List.mem_cons_self
      simp
    · rw [beq_false_of_ne hk]
      refine ih ?_ fun w hw => hu w (List.mem_cons_of_mem _ hw)
      rcases List.mem_cons.1 hmem with he | he
      · exact absurd (Prod.mk.inj he).1 hk
      · exact he

namespace Monitor

/-! ## Runs -/

inductive Call
  | sample (metric : Metric) (value : Float) (timestamp : Int)
  | evaluate (now : Int)

def after (m : Monitor) : Call → Monitor
  | .sample metric value timestamp => m.addSample metric value timestamp
  | .evaluate now => (m.evaluate now).monitor

def run (m : Monitor) (calls : List Call) : Monitor := calls.foldl after m

/-- What the evaluations of a run return, one after the other. -/
def returned (m : Monitor) : List Call → List (Except ExpressionError AlarmState)
  | [] => []
  | .sample metric value timestamp :: calls => returned (m.addSample metric value timestamp) calls
  | .evaluate now :: calls => (m.evaluate now).outcome :: returned (m.evaluate now).monitor calls

/-- Whether the sub-alarm at a place is in alarm. -/
def inAlarm (m : Monitor) (place : Nat) : Bool :=
  m.subAlarms[place]?.map (·.state) == some .alarm

/-- The state of the whole, the conditions of the formula having their values by place. -/
def verdict (m : Monitor) (f : Formula) : AlarmState :=
  if f.holdsAt m.inAlarm 0 then .alarm
  else if m.subAlarms.any (·.state == .undetermined) then .undetermined
  else .ok

/-! ## Sub-alarms in step -/

/-- There is one sub-alarm for each place, and equal conditions have equal sub-alarms. -/
structure Aligned (e : Expression) (m : Monitor) : Prop where
  expression : m.expression = e
  conditions : m.subAlarms.map (·.condition) = e.conditions
  uniform : ∀ a ∈ m.subAlarms, ∀ b ∈ m.subAlarms, a.condition = b.condition → a = b

variable {e : Expression} {m : Monitor}

/-- What treats every sub-alarm alike keeps them in step. -/
theorem Aligned.map (h : Aligned e m) {m' : Monitor} {g : SubAlarm → SubAlarm}
    (hg : ∀ a, (g a).condition = a.condition) (hsub : m'.subAlarms = m.subAlarms.map g)
    (hexpr : m'.expression = m.expression) : Aligned e m' where
  expression := hexpr.trans h.expression
  conditions := by
    rw [hsub, List.map_map, ← h.conditions]
    exact List.map_congr_left fun a _ => hg a
  uniform a ha b hb hab := by
    rw [hsub] at ha hb
    obtain ⟨a', ha', rfl⟩ := List.mem_map.1 ha
    obtain ⟨b', hb', rfl⟩ := List.mem_map.1 hb
    rw [hg, hg] at hab
    rw [h.uniform a' ha' b' hb' hab]

theorem condition_offer (metric : Metric) (value : Float) (timestamp : Int) (a : SubAlarm) :
    ((offer metric value timestamp a).getD a).condition = a.condition := by
  unfold offer
  split
  · exact (a.frame_after (.sample value timestamp)).1
  · rfl

theorem subAlarms_evaluate (m : Monitor) (now : Int) :
    (m.evaluate now).monitor.subAlarms = m.subAlarms.map (·.evaluate now) := by
  unfold evaluate
  dsimp only
  split <;> rfl

theorem expression_evaluate (m : Monitor) (now : Int) :
    (m.evaluate now).monitor.expression = m.expression := by
  unfold evaluate
  dsimp only
  split <;> rfl

theorem Aligned.evaluate (h : Aligned e m) (now : Int) : Aligned e (m.evaluate now).monitor :=
  h.map (fun a => (a.frame_after (.evaluate now)).1) (subAlarms_evaluate m now)
    (expression_evaluate m now)

theorem Aligned.after (h : Aligned e m) (call : Call) : Aligned e (m.after call) := by
  cases call with
  | sample metric value timestamp =>
    exact h.map (condition_offer metric value timestamp) rfl rfl
  | evaluate now => exact h.evaluate now

theorem Aligned.run (h : Aligned e m) (calls : List Call) : Aligned e (m.run calls) := by
  induction calls generalizing m with
  | nil => exact h
  | cons call calls ih => exact ih (h.after call)

theorem create_each {cs : List Condition} {s : Settings} {viewEnd : Int} {as : List SubAlarm}
    (h : cs.mapM (fun c => SubAlarm.create c s viewEnd) = .ok as) :
    as.map (·.condition) = cs ∧ ∀ a ∈ as, SubAlarm.create a.condition s viewEnd = .ok a := by
  induction cs generalizing as with
  | nil =>
    simp only [List.mapM_nil, pure, Except.pure, Except.ok.injEq] at h
    subst h
    exact ⟨rfl, fun a ha => absurd ha List.not_mem_nil⟩
  | cons c cs ih =>
    rw [List.mapM_cons] at h
    obtain ⟨a, ha, h⟩ := Grammar.bind_eq_ok h
    obtain ⟨as', has, h⟩ := Grammar.bind_eq_ok h
    simp only [pure, Except.pure, Except.ok.injEq] at h
    subst h
    obtain ⟨hmap, hall⟩ := ih has
    have hc : a.condition = c := by
      obtain ⟨w, -, rfl⟩ := SubAlarm.exists_window_of_create ha
      rfl
    refine ⟨by rw [List.map_cons, hc, hmap], List.forall_mem_cons.2 ⟨?_, hall⟩⟩
    rwa [hc]

/-- What a fresh monitor looks like: undetermined, with the sub-alarms that its conditions get. -/
theorem create_eq_ok {severity : Severity} {s : Settings} {viewEnd : Int}
    (h : create e severity s viewEnd = .ok m) :
    m.expression = e ∧ m.state = .undetermined ∧ m.subAlarms.map (·.condition) = e.conditions ∧
      ∀ a ∈ m.subAlarms, SubAlarm.create a.condition s viewEnd = .ok a := by
  obtain ⟨as, hs, rfl⟩ := Grammar.map_eq_ok h
  exact ⟨rfl, rfl, create_each hs⟩

theorem aligned_create {severity : Severity} {s : Settings} {viewEnd : Int}
    (h : create e severity s viewEnd = .ok m) : Aligned e m := by
  obtain ⟨hexpr, -, hmap, hall⟩ := create_eq_ok h
  refine ⟨hexpr, hmap, fun a ha b hb hab => ?_⟩
  have hb' := hall b hb
  rw [← hab, hall a ha] at hb'
  exact Except.ok.inj hb'

/-! ## Evaluations -/

theorem Aligned.valueOf (h : Aligned e m) {a : SubAlarm} (ha : a ∈ m.subAlarms) :
    valueOf (alarms m.subAlarms) a.condition = some (a.state == .alarm) := by
  refine lookup_eq_some_of_unique (List.mem_reverse.2 (List.mem_map_of_mem ha)) fun v hv => ?_
  obtain ⟨b, hb, heq⟩ := List.mem_map.1 (List.mem_reverse.1 hv)
  obtain ⟨hc, rfl⟩ := Prod.mk.inj heq
  rw [h.uniform b hb a ha hc]

theorem Aligned.getElem?_leaves (h : Aligned e m) {f : Formula} (hf : f.steps = e.program)
    (place : Nat) : f.leaves[place]? = m.subAlarms[place]?.map (·.condition) := by
  have hleaves : f.leaves = e.conditions := by
    rw [← Formula.conditions_steps, hf]
    rfl
  rw [hleaves, ← h.conditions, List.getElem?_map]

theorem Aligned.combine (h : Aligned e m) {f : Formula} (hf : f.steps = e.program) :
    combine e m.subAlarms = .ok (m.verdict f) := by
  have heval : e.evaluate (MetricAlarm.valueOf (alarms m.subAlarms)) =
      .ok (f.holdsAt m.inAlarm 0) := by
    rw [Expression.evaluate, ← hf]
    refine Program.evaluate_positional fun place c hc => ?_
    rw [h.getElem?_leaves hf] at hc
    obtain ⟨a, ha, rfl⟩ := Option.map_eq_some_iff.1 hc
    rw [h.valueOf (List.mem_of_getElem? ha), inAlarm, ha]
    rfl
  rw [Monitor.combine, heval]
  rfl

theorem evaluate_of_combine {now : Int} {state : AlarmState}
    (h : combine m.expression (m.evaluate now).monitor.subAlarms = .ok state) :
    (m.evaluate now).outcome = .ok state ∧ (m.evaluate now).monitor.state = state := by
  rw [subAlarms_evaluate] at h
  unfold evaluate
  simp only [h, and_self]

/-- An evaluation never fails; the state that it returns is kept. -/
theorem Aligned.outcome (h : Aligned e m) {f : Formula} (hf : f.steps = e.program) (now : Int) :
    (m.evaluate now).outcome = .ok ((m.evaluate now).monitor.verdict f) ∧
      (m.evaluate now).monitor.state = (m.evaluate now).monitor.verdict f := by
  have hc := (h.evaluate now).combine hf
  rw [← h.expression] at hc
  exact evaluate_of_combine hc

theorem Aligned.returned (h : Aligned e m) {f : Formula} (hf : f.steps = e.program)
    (calls : List Call) : ∃ states : List AlarmState,
      m.returned calls = states.map .ok ∧ (m.run calls).state = states.getLast?.getD m.state := by
  induction calls generalizing m with
  | nil => exact ⟨[], rfl, rfl⟩
  | cons call calls ih =>
    obtain ⟨states, hstates, hlast⟩ := ih (h.after call)
    cases call with
    | sample metric value timestamp => exact ⟨states, hstates, hlast⟩
    | evaluate now =>
      obtain ⟨hout, hstate⟩ := h.outcome hf now
      refine ⟨(m.evaluate now).monitor.verdict f :: states, ?_, ?_⟩
      · rw [Monitor.returned, hout, List.map_cons]
        exact congrArg _ hstates
      · rw [List.getLast?_cons, Option.getD_some, ← hstate]
        exact hlast

theorem state_create {severity : Severity} {s : Settings} {viewEnd : Int}
    (h : create e severity s viewEnd = .ok m) : m.state = .undetermined :=
  (create_eq_ok h).2.1

/-- In every state that a monitor reaches, places with equal conditions have equal sub-alarms, and
the table of an evaluation has the state of each place. No evaluation fails; each returns the
verdict of the formula by place, and the last one returned is the monitor's state. -/
theorem verdicts {severity : Severity} {s : Settings} {viewEnd : Int}
    (he : (∃ text, Expression.compile text = .ok e) ∨
      ∃ text p, Expression.ofProgram text p = .ok e)
    (hm : create e severity s viewEnd = .ok m) :
    ∃ f : Formula, f.steps = e.program ∧ ∀ calls,
      (m.run calls).subAlarms.map (·.condition) = f.leaves ∧
      (∀ i j : Nat, f.leaves[i]? = f.leaves[j]? →
        (m.run calls).subAlarms[i]? = (m.run calls).subAlarms[j]?) ∧
      (∀ (i : Nat) (a : SubAlarm), (m.run calls).subAlarms[i]? = some a →
        valueOf (alarms (m.run calls).subAlarms) a.condition = some ((m.run calls).inAlarm i)) ∧
      (∀ now, ((m.run calls).evaluate now).outcome =
        .ok (((m.run calls).evaluate now).monitor.verdict f)) ∧
      ∃ states : List AlarmState, m.returned calls = states.map .ok ∧
        (m.run calls).state = states.getLast?.getD .undetermined := by
  obtain ⟨f, hf⟩ := Expression.exists_formula he
  have haligned := aligned_create hm
  refine ⟨f, hf, fun calls => ?_⟩
  have hrun := haligned.run calls
  refine ⟨?_, ?_, ?_, fun now => (hrun.outcome hf now).1, ?_⟩
  · rw [hrun.conditions, ← Formula.conditions_steps, hf]
    rfl
  · intro i j hij
    rw [hrun.getElem?_leaves hf, hrun.getElem?_leaves hf] at hij
    cases ha : (m.run calls).subAlarms[i]? with
    | none =>
      rw [ha] at hij
      exact (Option.map_eq_none_iff.1 hij.symm).symm
    | some a =>
      rw [ha, Option.map_some] at hij
      obtain ⟨b, hb, hab⟩ := Option.map_eq_some_iff.1 hij.symm
      rw [hb, hrun.uniform a (List.mem_of_getElem? ha) b (List.mem_of_getElem? hb) hab.symm]
  · intro i a ha
    rw [hrun.valueOf (List.mem_of_getElem? ha), inAlarm, ha]
    rfl
  · rw [← state_create hm]
    exact haligned.returned hf calls

/-- One condition at two places: whatever happens, both sub-alarms are in the same state. A sample
above the threshold takes the monitor to an alarm as soon as the view is judged. -/
theorem verdicts_twins :
    ∃ c e m, Expression.ofProgram "twins" [.condition c, .condition c, .join .and] = .ok e ∧
      create e .low .default 60 = .ok m ∧
      m.returned [.evaluate 70, .sample (.named "cpu") 95 30, .evaluate 71] =
        [.ok .undetermined, .ok .alarm] ∧
      ∃ f : Formula, f.steps = e.program ∧ ∀ calls,
        (m.run calls).subAlarms[0]? = (m.run calls).subAlarms[1]? ∧
        ∀ now, ((m.run calls).evaluate now).outcome =
          .ok (((m.run calls).evaluate now).monitor.verdict f) := by
  let c : Condition := ⟨.max, .named "cpu", .gt, 90, 60, 1, false⟩
  let p : Program := [.condition c, .condition c, .join .and]
  have he : Expression.ofProgram "twins" p = .ok ⟨"twins", p⟩ := rfl
  have hcheck : (create ⟨"twins", p⟩ .low .default 60).toOption.any (fun m => decide
      (m.returned [.evaluate 70, .sample (.named "cpu") 95 30, .evaluate 71] =
        [.ok .undetermined, .ok .alarm])) = true := by
    decide +kernel
  cases hm : create ⟨"twins", p⟩ .low .default 60 with
  | error fault => rw [hm] at hcheck; cases hcheck
  | ok m =>
    rw [hm] at hcheck
    have halarm := of_decide_eq_true hcheck
    obtain ⟨f, hf, h⟩ := verdicts (Or.inr ⟨_, _, he⟩) hm
    refine ⟨c, _, m, he, hm, halarm, f, hf, fun calls => ⟨(h calls).2.1 0 1 ?_, (h calls).2.2.2.1⟩⟩
    rw [← Formula.conditions_steps, hf]
    rfl

end Monitor

end MetricAlarm
