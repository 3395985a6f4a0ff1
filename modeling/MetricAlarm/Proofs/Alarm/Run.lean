import MetricAlarm.Alarm.SubAlarm
import MetricAlarm.Proofs.Window.Distance

/-!
# Runs of a sub-alarm

A sub-alarm takes samples and is evaluated, in any order. Its window runs along, by one call of its
own for each call of the sub-alarm, and nothing else of the sub-alarm but its state changes. Main
statements: `window_run`, `sound_run`, and `history_eq`: the samples of a slot are those of all
samples taken that the slot covers.
-/

namespace MetricAlarm

/-- The samples whose timestamp, as rounded, is at least `lower` and less than `upper`. -/
def samplesWithin (r : Resolution) (lower upper : Int) (samples : List Sample) : List Sample :=
  samples.filter fun x => lower ≤ r.adjust x.2 ∧ r.adjust x.2 < upper

namespace SubAlarm

/-! ## Runs -/

inductive Call
  | sample (value : Float) (timestamp : Int)
  | evaluate (now : Int)

/-- The sub-alarm after a call; a sample that is refused changes nothing. -/
def after (a : SubAlarm) : Call → SubAlarm
  | .sample v t => (a.insert? v t).getD a
  | .evaluate now => a.evaluate now

def run (a : SubAlarm) (calls : List Call) : SubAlarm := calls.foldl after a

/-- The sample of a call, if it is taken. -/
def takes (a : SubAlarm) : Call → List Sample
  | .sample v t => if (a.insert? v t).isSome then [(v, t)] else []
  | .evaluate _ => []

/-- The samples that are taken in a run, in the order of their arrival. -/
def taken (a : SubAlarm) : List Call → List Sample
  | [] => []
  | c :: calls => a.takes c ++ (a.after c).taken calls

/-- What a call does to the window. -/
def Call.onWindow (minDelay : Int) : Call → Window.Call
  | .sample v t => .add v t false
  | .evaluate now => .slide now minDelay

/-! ## The window of a run -/

theorem exists_window_of_create {c : Condition} {s : Settings} {viewEnd : Int} {a : SubAlarm}
    (h : create c s viewEnd = .ok a) :
    ∃ w, Window.create (shape c s viewEnd) = .ok w ∧ a = ⟨c, w, s.minDelay, .undetermined⟩ := by
  unfold create at h
  cases hw : Window.create (shape c s viewEnd) with
  | error fault => simp [hw, Except.map] at h
  | ok w =>
    rw [hw] at h
    exact ⟨w, rfl, (Except.ok.inj h).symm⟩

theorem frame_after (a : SubAlarm) (call : Call) :
    (a.after call).condition = a.condition ∧ (a.after call).minDelay = a.minDelay := by
  cases call with
  | sample v t =>
    simp only [after, insert?]
    cases a.window.insert? v t false <;> exact ⟨rfl, rfl⟩
  | evaluate now =>
    simp only [after, evaluate]
    split <;> exact ⟨rfl, rfl⟩

theorem window_after (a : SubAlarm) (call : Call) :
    (a.after call).window = a.window.after (call.onWindow a.minDelay) := by
  cases call with
  | sample v t =>
    simp only [after, insert?, Call.onWindow, Window.after]
    cases a.window.insert? v t false <;> rfl
  | evaluate now =>
    simp only [after, evaluate, Call.onWindow, Window.after]
    split
    · rfl
    · next h => exact (Window.slideTo_of_not_due (Bool.eq_false_iff.2 h)).symm

/-- A sample touches the slots of a sub-alarm only. -/
theorem after_sample_eq (a : SubAlarm) (v : Float) (t : Int) :
    ∃ slots, a.after (.sample v t) = { a with window := { a.window with slots := slots } } := by
  refine ⟨(a.window.after (.add v t false)).slots, ?_⟩
  rw [← Window.after_add_eq]
  simp only [after, insert?, Window.after]
  cases a.window.insert? v t false <;> rfl

theorem frame_run (a : SubAlarm) (calls : List Call) :
    (a.run calls).condition = a.condition ∧ (a.run calls).minDelay = a.minDelay := by
  induction calls generalizing a with
  | nil => exact ⟨rfl, rfl⟩
  | cons call calls ih =>
    obtain ⟨hc, hd⟩ := a.frame_after call
    obtain ⟨hc', hd'⟩ := ih (a.after call)
    exact ⟨hc'.trans hc, hd'.trans hd⟩

theorem window_run (a : SubAlarm) (calls : List Call) :
    (a.run calls).window = a.window.run (calls.map (·.onWindow a.minDelay)) := by
  induction calls generalizing a with
  | nil => rfl
  | cons call calls ih =>
    have h := ih (a.after call)
    rw [window_after, (a.frame_after call).2] at h
    exact h

/-! ## What every state has in common -/

/-- The width of the slots, in the unit of timestamps. -/
def slotWidth (c : Condition) (s : Settings) : Int := (c.period.toNat : Int) * s.resolution.perSecond

/-- A sub-alarm of a condition under settings, whatever it has seen. -/
structure Sound (c : Condition) (s : Settings) (a : SubAlarm) : Prop where
  condition_eq : a.condition = c
  minDelay_eq : a.minDelay = s.minDelay
  regular : Window.Regular c.function.statistic a.window
  bounded : a.window.Bounded
  slotWidth_eq : a.window.slotWidth = slotWidth c s
  viewSlots_eq : a.window.viewSlots = c.periods.toNat

theorem Sound.slotWidth_pos {c : Condition} {s : Settings} {a : SubAlarm} (h : Sound c s a) :
    0 < slotWidth c s := by
  rw [← h.slotWidth_eq]
  exact h.regular.width_pos

theorem sound_create {c : Condition} {s : Settings} {viewEnd : Int} {a : SubAlarm}
    (h : create c s viewEnd = .ok a) : Sound c s a := by
  obtain ⟨w, hw, rfl⟩ := exists_window_of_create h
  obtain ⟨-, hview, hwidth, -⟩ := Window.frame_create hw
  exact ⟨rfl, rfl, Window.regular_create hw, Window.bounded_create hw, hwidth, hview⟩

theorem Sound.after {c : Condition} {s : Settings} {a : SubAlarm} (h : Sound c s a) (call : Call) :
    Sound c s (a.after call) := by
  obtain ⟨hcondition, hdelay⟩ := a.frame_after call
  obtain ⟨-, hview, hwidth, -⟩ := h.regular.frame_after (call.onWindow a.minDelay)
  have hwindow := a.window_after call
  constructor
  case condition_eq => exact hcondition.trans h.condition_eq
  case minDelay_eq => exact hdelay.trans h.minDelay_eq
  case regular =>
    rw [hwindow]
    exact h.regular.after _
  case bounded =>
    rw [hwindow]
    exact h.regular.bounded_after h.bounded _
  case slotWidth_eq =>
    rw [hwindow]
    exact hwidth.trans h.slotWidth_eq
  case viewSlots_eq =>
    rw [hwindow]
    exact hview.trans h.viewSlots_eq

theorem Sound.run {c : Condition} {s : Settings} {a : SubAlarm} (h : Sound c s a)
    (calls : List Call) : Sound c s (a.run calls) := by
  induction calls generalizing a with
  | nil => exact h
  | cons call calls ih => exact ih (h.after call)

theorem sound_run {c : Condition} {s : Settings} {viewEnd : Int} {a : SubAlarm}
    (h : create c s viewEnd = .ok a) (calls : List Call) : Sound c s (a.run calls) :=
  (sound_create h).run calls

/-! ## Samples by slot -/

variable {kind : Statistic} {a : SubAlarm}

theorem insert?_isSome (a : SubAlarm) (v : Float) (t : Int) :
    (a.insert? v t).isSome = true ↔ a.window.Covers t := by
  rw [insert?, Option.isSome_map, Window.insert?_isSome]
  simp

/-- A slot gets the samples taken whose timestamps it covers. -/
theorem brings_eq (a : SubAlarm) (start : Int) (call : Call) :
    a.window.brings start (call.onWindow a.minDelay) =
      samplesWithin a.window.resolution start (start + a.window.slotWidth) (a.takes call) := by
  cases call with
  | evaluate now => rfl
  | sample v t =>
    simp only [Call.onWindow, Window.brings, takes, insert?_isSome]
    by_cases hc : a.window.Covers t
    · simp [hc, samplesWithin, Window.Meets, List.filter_singleton]
    · simp [hc, samplesWithin]

theorem history_eq (h : Window.Regular kind a.window) (start : Int) (calls : List Call) :
    Window.history start a.window (calls.map (·.onWindow a.minDelay)) =
      samplesWithin a.window.resolution start (start + a.window.slotWidth) (a.taken calls) := by
  induction calls generalizing a with
  | nil => rfl
  | cons call calls ih =>
    have hr : Window.Regular kind (a.after call).window := by
      rw [window_after]
      exact h.after _
    obtain ⟨-, -, hw, hres⟩ := h.frame_after (call.onWindow a.minDelay)
    have hlater := ih hr
    rw [window_after, (a.frame_after call).2, hw, hres] at hlater
    rw [List.map_cons, Window.history, hlater, brings_eq, taken, samplesWithin, samplesWithin,
      samplesWithin, List.filter_append]

end SubAlarm

end MetricAlarm
