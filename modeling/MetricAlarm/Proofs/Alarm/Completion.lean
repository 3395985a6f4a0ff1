import MetricAlarm.Proofs.Alarm.Monitor
import MetricAlarm.Proofs.Formula.Monotone

/-!
# What is open cannot mislead

A condition whose state is undetermined might turn out either way. A monitor is in alarm exactly
when its expression holds however such conditions turn out, and it gives the all-clear only when
none is left. As formulas are monotone, one completion decides about all of them: the one that takes
everything open for false. Main statements: `Aligned.least_le` and `alarm_iff_forall_completes`.
-/

namespace MetricAlarm.Monitor

/-- Truth values that replace the states of the sub-alarms: alarm is true, the all-clear is false,
and what is undetermined may be either. Equal conditions are replaced alike. -/
structure Completes (m : Monitor) (v : Condition → Bool) : Prop where
  alarm : ∀ a ∈ m.subAlarms, a.state = .alarm → v a.condition = true
  clear : ∀ a ∈ m.subAlarms, a.state = .ok → v a.condition = false

/-- The completion that takes everything open for false. -/
def least (m : Monitor) (c : Condition) : Bool := (valueOf (alarms m.subAlarms) c).getD false

variable {e : Expression} {m : Monitor} {v : Condition → Bool}

/-! ## The least completion -/

theorem Aligned.least_condition (h : Aligned e m) {a : SubAlarm} (ha : a ∈ m.subAlarms) :
    m.least a.condition = (a.state == .alarm) := by
  rw [least, h.valueOf ha, Option.getD_some]

theorem Aligned.completes_least (h : Aligned e m) : m.Completes m.least where
  alarm a ha hstate := by
    rw [h.least_condition ha, hstate]
    rfl
  clear a ha hstate := by
    rw [h.least_condition ha, hstate]
    rfl

/-- Every condition belongs to a sub-alarm. -/
theorem Aligned.exists_subAlarm (h : Aligned e m) {c : Condition} (hc : c ∈ e.conditions) :
    ∃ a ∈ m.subAlarms, a.condition = c := by
  rw [← h.conditions] at hc
  exact List.mem_map.1 hc

theorem Aligned.least_le (h : Aligned e m) (hv : m.Completes v) {c : Condition}
    (hc : c ∈ e.conditions) : m.least c ≤ v c := by
  obtain ⟨a, ha, rfl⟩ := h.exists_subAlarm hc
  rw [h.least_condition ha]
  intro halarm
  exact hv.alarm a ha (eq_of_beq halarm)

theorem Aligned.valueOf_eq_least (h : Aligned e m) {c : Condition} (hc : c ∈ e.conditions) :
    MetricAlarm.valueOf (alarms m.subAlarms) c = some (m.least c) := by
  obtain ⟨a, ha, rfl⟩ := h.exists_subAlarm hc
  rw [h.least_condition ha, h.valueOf ha]

/-! ## Outcomes -/

theorem Aligned.evaluate_table (h : Aligned e m) {f : Formula} (hf : f.steps = e.program)
    (hleaves : f.leaves = e.conditions) :
    e.evaluate (MetricAlarm.valueOf (alarms m.subAlarms)) = .ok (f.eval m.least) := by
  rw [Expression.evaluate, ← hf]
  refine Program.evaluate_steps fun c hc => ?_
  rw [hleaves] at hc
  exact h.valueOf_eq_least hc

/-- The outcome is decided by the least completion and by whether anything is open. -/
theorem Aligned.outcome_eq (h : Aligned e m) {f : Formula} (hf : f.steps = e.program)
    (hleaves : f.leaves = e.conditions) (now : Int) :
    (m.evaluate now).outcome = .ok (
      if f.eval (m.evaluate now).monitor.least then .alarm
      else if (m.evaluate now).monitor.subAlarms.any (·.state == .undetermined) then .undetermined
      else .ok) := by
  have hafter := h.evaluate now
  refine (evaluate_of_combine ?_).1
  rw [h.expression, Monitor.combine, hafter.evaluate_table hf hleaves]
  rfl

theorem any_undetermined (as : List SubAlarm) :
    as.any (·.state == .undetermined) = false ↔ ∀ a ∈ as, a.state ≠ .undetermined := by
  simp

variable {now : Int} {f : Formula}

theorem Aligned.outcome_alarm_iff (h : Aligned e m) (hf : f.steps = e.program)
    (hleaves : f.leaves = e.conditions) :
    (m.evaluate now).outcome = .ok .alarm ↔ f.eval (m.evaluate now).monitor.least = true := by
  rw [h.outcome_eq hf hleaves, Except.ok.injEq]
  split
  · simp [*]
  · split <;> simp [*]

theorem Aligned.outcome_ok_iff (h : Aligned e m) (hf : f.steps = e.program)
    (hleaves : f.leaves = e.conditions) :
    (m.evaluate now).outcome = .ok .ok ↔
      (∀ a ∈ (m.evaluate now).monitor.subAlarms, a.state ≠ .undetermined) ∧
        f.eval (m.evaluate now).monitor.least = false := by
  rw [h.outcome_eq hf hleaves, Except.ok.injEq, ← any_undetermined]
  split
  · simp [*]
  · split <;> simp [*]

/-- Raising the truth values of conditions never makes a true expression false; it is true when all
its conditions are, and false when none is. In every state that a monitor reaches an evaluation
comes out as alarm exactly when the expression is true under every completion of the states, and as
the all-clear exactly when no state is undetermined and the expression is false. -/
theorem alarm_iff_forall_completes
    (he : (∃ text, Expression.compile text = .ok e) ∨
      ∃ text p, Expression.ofProgram text p = .ok e) :
    (∀ values values' : Condition → Option Bool,
      (∀ c ∈ e.conditions, ∃ b b', values c = some b ∧ values' c = some b' ∧ b ≤ b') →
        e.evaluate values = .ok true → e.evaluate values' = .ok true) ∧
    (∀ (values : Condition → Option Bool) (b : Bool),
      (∀ c ∈ e.conditions, values c = some b) → e.evaluate values = .ok b) ∧
    ∀ severity s viewEnd m, create e severity s viewEnd = .ok m → ∀ calls now,
      let r := (m.run calls).evaluate now
      (r.outcome = .ok .alarm ↔
        ∀ v : Condition → Bool, r.monitor.Completes v →
          e.evaluate (fun c => some (v c)) = .ok true) ∧
      (r.outcome = .ok .ok ↔
        (∀ a ∈ r.monitor.subAlarms, a.state ≠ .undetermined) ∧
          e.evaluate (valueOf (alarms r.monitor.subAlarms)) = .ok false) := by
  obtain ⟨f, hf⟩ := Expression.exists_formula he
  have hleaves : f.leaves = e.conditions := by
    rw [Expression.conditions, ← hf]
    exact (Formula.conditions_steps f).symm
  refine ⟨?_, ?_, fun severity s viewEnd m hm calls now => ?_⟩
  · rw [← hleaves]
    simp only [Expression.evaluate, ← hf]
    exact fun values values' => Program.evaluate_mono
  · rw [← hleaves]
    simp only [Expression.evaluate, ← hf]
    exact fun values b => Program.evaluate_of_forall_eq
  have hrun := (aligned_create hm).run calls
  have hafter := hrun.evaluate now
  have heval (v : Condition → Bool) : e.evaluate (fun c => some (v c)) = .ok (f.eval v) := by
    rw [Expression.evaluate, ← hf]
    exact Program.evaluate_steps fun _ _ => rfl
  constructor
  · rw [hrun.outcome_alarm_iff hf hleaves]
    constructor
    · intro halarm v hv
      have hle : ∀ c ∈ f.leaves, _ ≤ v c := fun c hc => hafter.least_le hv (hleaves ▸ hc)
      rw [heval, Except.ok.injEq]
      exact Formula.eval_mono hle halarm
    · intro hall
      have hleast := hall _ hafter.completes_least
      rwa [heval, Except.ok.injEq] at hleast
  · rw [hrun.outcome_ok_iff hf hleaves, hafter.evaluate_table hf hleaves, Except.ok.injEq]

/-- One of three conditions is in alarm and stands at two places, and there are no data for the
others: they cannot take the alarm back. -/
theorem alarm_iff_forall_completes_missing :
    let cpu : Condition := ⟨.max, .named "cpu", .gt, 90, 60, 1, false⟩
    let mem : Condition := ⟨.max, .named "mem", .gt, 80, 60, 1, false⟩
    let disk : Condition := ⟨.avg, .named "disk", .gt, 95, 60, 2, false⟩
    let p : Program := [.condition cpu, .condition mem, .join .or, .condition cpu, .condition disk,
      .join .or, .join .and]
    let calls : List Call := [.sample (.named "cpu") 95 30]
    ∃ e m, Expression.ofProgram "missing" p = .ok e ∧ create e .low .default 60 = .ok m ∧
      let r := (m.run calls).evaluate 75
      r.outcome = .ok .alarm ∧
      r.monitor.subAlarms.map (·.state) = [.alarm, .undetermined, .alarm, .undetermined] ∧
      (∀ v : Condition → Bool, r.monitor.Completes v →
        e.evaluate (fun c => some (v c)) = .ok true) ∧
      e.evaluate (fun c => some (c == cpu || c == disk)) = .ok true := by
  intro cpu mem disk p calls
  have hcheck : (create ⟨"missing", p⟩ .low .default 60).toOption.any (fun m => decide
      (((m.run calls).evaluate 75).outcome = .ok .alarm ∧
        ((m.run calls).evaluate 75).monitor.subAlarms.map (·.state) =
          [.alarm, .undetermined, .alarm, .undetermined])) = true := by
    decide +kernel
  have he : Expression.ofProgram "missing" p = .ok ⟨"missing", p⟩ := rfl
  obtain ⟨hmono, -, hdecided⟩ := alarm_iff_forall_completes (Or.inr ⟨_, _, he⟩)
  cases hm : create ⟨"missing", p⟩ .low .default 60 with
  | error fault => rw [hm] at hcheck; cases hcheck
  | ok m =>
    rw [hm] at hcheck
    obtain ⟨halarm, hstates⟩ := of_decide_eq_true hcheck
    have hcompletes := (hdecided .low .default 60 m hm calls 75).1.1 halarm
    refine ⟨_, m, he, hm, halarm, hstates, hcompletes, ?_⟩
    refine hmono (fun c => some (c == cpu)) _ ?_ (by decide +kernel)
    intro c _
    refine ⟨_, _, rfl, rfl, ?_⟩
    cases c == cpu
    · exact Bool.false_le _
    · exact Bool.le_refl _

end MetricAlarm.Monitor
