import MetricAlarm.Proofs.Accumulator.Permutation
import MetricAlarm.Proofs.Alarm.Repetition
import MetricAlarm.Proofs.Window.Arrival
import MetricAlarm.Proofs.Window.Reads

/-!
# Samples in any order

Between two evaluations a monitor hands each sample to the sub-alarms that it concerns, and there it
goes to one slot. So two orders of the same samples, with the same order within each slot of each
sub-alarm, lead to the same monitor, and any two orders are taken in by as many sub-alarms. Where the
order within a slot differs, the values agree as far as `Statistic.SameValue` says. Main statement:
`Monitor.addSamples_perm`.
-/

namespace MetricAlarm

namespace SubAlarm

/-- The samples that the metric of a sub-alarm selects. -/
def selected (a : SubAlarm) (xs : List (Metric × Sample)) : List Sample :=
  (xs.filter fun x => a.condition.metric.selects x.1).map Prod.snd

/-- The samples that land in slot number `k` of a sub-alarm. -/
def landing (a : SubAlarm) (k : Nat) (xs : List (Metric × Sample)) : List Sample :=
  a.window.fallingAt (a.window.physical k) (a.selected xs)

/-- A sub-alarm after the samples that concern it. -/
def takeAll (a : SubAlarm) (xs : List (Metric × Sample)) : SubAlarm :=
  { a with window := a.window.run (Window.adds (a.selected xs)) }

theorem landing_perm (a : SubAlarm) (k : Nat) {xs ys : List (Metric × Sample)} (hp : xs.Perm ys) :
    (a.landing k xs).Perm (a.landing k ys) :=
  ((hp.filter _).map _).filter _

theorem takeAll_cons (a : SubAlarm) (x : Metric × Sample) (xs : List (Metric × Sample)) :
    ((Monitor.offer x.1 x.2.1 x.2.2 a).getD a).takeAll xs = a.takeAll (x :: xs) := by
  unfold Monitor.offer
  by_cases hs : a.condition.metric.selects x.1 = true
  · have hfirst : (a.insert? x.2.1 x.2.2).getD a =
        { a with window := a.window.after (.add x.2.1 x.2.2 false) } := by
      simp only [insert?, Window.after]
      cases a.window.insert? x.2.1 x.2.2 false <;> rfl
    rw [if_pos hs, hfirst]
    simp [takeAll, selected, hs, Window.adds, Window.run]
  · simp [takeAll, selected, hs]

/-- The value of a slot is that of what it held and what lands there. -/
theorem value_takeAll (a : SubAlarm) {k : Nat} {s : Slot} (hs : a.window.contents[k]? = some s)
    (xs : List (Metric × Sample)) :
    (a.takeAll xs).window.values[k]? = some (s.samples.addAll (a.landing k xs)).value := by
  have hcontents := a.window.getElem?_contents_run_adds (a.selected xs) k
  rw [hs, Option.map_some] at hcontents
  have hk := (List.getElem?_eq_some_iff.1 hcontents).1
  rw [Window.length_contents] at hk
  rw [takeAll, Window.getElem?_values hk, Window.valueAt_physical _ hcontents, landing]

/-- The order within each slot is all that counts. -/
theorem takeAll_congr {kind : Statistic} {a : SubAlarm} (h : Window.Regular kind a.window)
    {xs ys : List (Metric × Sample)}
    (hsame : ∀ k < a.window.slots.size, a.landing k xs = a.landing k ys) :
    a.takeAll xs = a.takeAll ys := by
  have hwindow : a.window.run (Window.adds (a.selected xs)) =
      a.window.run (Window.adds (a.selected ys)) := by
    refine Window.run_adds_congr fun place hplace => ?_
    have hslot := hsame (a.window.logical place) (Nat.mod_lt _ h.size_pos)
    rwa [landing, landing, Window.physical_logical h.base_lt hplace] at hslot
  rw [takeAll, hwindow, takeAll]

end SubAlarm

namespace Monitor

/-- How many sub-alarms take a sample in, counted over samples that arrive one after the other. -/
def accepted (m : Monitor) : List (Metric × Sample) → Nat
  | [] => 0
  | x :: xs => m.takers x.1 x.2.1 x.2.2 + (m.addSample x.1 x.2.1 x.2.2).accepted xs

theorem addSamples_eq (m : Monitor) (xs : List (Metric × Sample)) :
    m.addSamples xs = { m with subAlarms := m.subAlarms.map (·.takeAll xs) } := by
  induction xs generalizing m with
  | nil => simp [addSamples, SubAlarm.takeAll, SubAlarm.selected, Window.adds, Window.run]
  | cons x xs ih =>
    refine (ih _).trans ?_
    simp only [addSample, List.map_map, Function.comp_def, SubAlarm.takeAll_cons]

/-! ## Counting -/

theorem offer_isSome (metric : Metric) (value : Float) (timestamp : Int) (a : SubAlarm) :
    (offer metric value timestamp a).isSome = true ↔
      a.condition.metric.selects metric = true ∧ a.window.Covers timestamp := by
  unfold offer
  split
  · next hs => simp [hs, a.insert?_isSome]
  · next hs => simp [hs]

/-- A sample does not keep another one out. -/
theorem takers_addSample (m : Monitor) (x y : Metric × Sample) :
    (m.addSample x.1 x.2.1 x.2.2).takers y.1 y.2.1 y.2.2 = m.takers y.1 y.2.1 y.2.2 := by
  rw [takers, addSample, List.countP_map, takers]
  refine List.countP_congr fun a _ => ?_
  obtain ⟨slots, hslots⟩ := offer_eq x.1 x.2.1 x.2.2 a
  rw [Function.comp_apply, hslots, offer_isSome, offer_isSome]
  rfl

theorem accepted_eq (m : Monitor) (xs : List (Metric × Sample)) :
    m.accepted xs = (xs.map fun x => m.takers x.1 x.2.1 x.2.2).sum := by
  induction xs generalizing m with
  | nil => rfl
  | cons x xs ih => simp only [accepted, ih, takers_addSample, List.map_cons, List.sum_cons]

variable {e : Expression} {m : Monitor}

/-- In every state of a monitor, two orders of the same samples, with the same order of those that
land in one slot, lead to the same state. Any two orders are taken in by as many sub-alarms, and make
values in each slot that agree as its statistic allows. -/
theorem addSamples_perm {severity : Severity} {s : Settings} {viewEnd : Int}
    (hm : create e severity s viewEnd = .ok m) (calls : List Call)
    {xs ys : List (Metric × Sample)} (hp : xs.Perm ys) :
    let now := m.run calls
    ((∀ a ∈ now.subAlarms, ∀ k < a.window.slots.size, a.landing k xs = a.landing k ys) →
      now.addSamples xs = now.addSamples ys) ∧
    now.accepted xs = now.accepted ys ∧
    ∀ (i : Nat) (a : SubAlarm), now.subAlarms[i]? = some a →
      ∀ (k : Nat) (slot : Slot), a.window.contents[k]? = some slot →
        ∃ (b b' : SubAlarm) (x y : Float), (now.addSamples xs).subAlarms[i]? = some b ∧
          (now.addSamples ys).subAlarms[i]? = some b' ∧
          b.window.values[k]? = some x ∧ b'.window.values[k]? = some y ∧
          a.condition.function.statistic.SameValue slot.samples (a.landing k xs) x y := by
  intro now
  refine ⟨fun hsame => ?_, ?_, fun i a ha k slot hslot => ?_⟩
  · rw [addSamples_eq, addSamples_eq]
    congr 1
    refine List.map_congr_left fun a ha => ?_
    obtain ⟨c, hc⟩ := sound_of_mem hm calls ha
    exact SubAlarm.takeAll_congr hc.regular (hsame a ha)
  · rw [accepted_eq, accepted_eq]
    exact (hp.map _).sum_nat
  · obtain ⟨c, hc⟩ := sound_of_mem hm calls (List.mem_of_getElem? ha)
    refine ⟨a.takeAll xs, a.takeAll ys, _, _, ?_, ?_, a.value_takeAll hslot xs,
      a.value_takeAll hslot ys, ?_⟩
    · simp [addSamples_eq, now, ha]
    · simp [addSamples_eq, now, ha]
    · have hmem : slot ∈ a.window.slots := Window.mem_contents.1 (List.mem_of_getElem? hslot)
      rw [hc.condition_eq, ← hc.regular.kind_eq slot hmem]
      exact slot.samples.sameValue_addAll (a.landing_perm k hp)

/-- Zeros of either sign in two slots of the first condition and in one of the second, and a sample
that is ahead of the first. Which zero is the greatest value depends on the order, as a number it
does not. -/
theorem addSamples_perm_zeros :
    let cpu : Metric := .named "cpu"
    let newest : Condition := ⟨.last, cpu, .gt, 90, 60, 5, false⟩
    let greatest : Condition := ⟨.max, cpu, .gt, 90, 300, 1, false⟩
    let e : Expression := ⟨"zeros", [.condition newest, .condition greatest, .join .or]⟩
    let calls : List Call := [.sample cpu 95 250, .evaluate 400]
    let xs : List (Metric × Sample) := [(cpu, 0, 410), (cpu, -0, 470), (cpu, 7, 610)]
    let ys : List (Metric × Sample) := [(cpu, 7, 610), (cpu, 0, 410), (cpu, -0, 470)]
    let zs : List (Metric × Sample) := [(cpu, -0, 470), (cpu, 0, 410), (cpu, 7, 610)]
    ∃ m, create e .low ⟨2, 50, .absolute, "info"⟩ 300 = .ok m ∧
      let now := m.run calls
      now.addSamples xs = now.addSamples ys ∧ now.accepted xs = 5 ∧ now.accepted zs = 5 ∧
      ∃ (b b' : SubAlarm) (x y : Float), (now.addSamples xs).subAlarms[1]? = some b ∧
        (now.addSamples zs).subAlarms[1]? = some b' ∧
        b.window.values[0]? = some x ∧ b'.window.values[0]? = some y ∧ (x == y) = true := by
  intro cpu newest greatest e calls xs ys zs
  have hcheck : (create e .low ⟨2, 50, .absolute, "info"⟩ 300).toOption.any (fun m => decide
      ((∀ a ∈ (m.run calls).subAlarms, ∀ k < a.window.slots.size,
          a.landing k xs = a.landing k ys) ∧
        (m.run calls).accepted xs = 5 ∧
        ∃ a : SubAlarm, (m.run calls).subAlarms[1]? = some a ∧
          a.condition.function.statistic = .max ∧
          a.landing 0 xs = ([(0, 410), (-0, 470)] : List Sample) ∧
          ∃ slot : Slot, a.window.contents[0]? = some slot ∧
            slot.samples.isInitialized = false)) = true := by
    decide +kernel
  cases hm : create e .low ⟨2, 50, .absolute, "info"⟩ 300 with
  | error fault => rw [hm] at hcheck; cases hcheck
  | ok m =>
    rw [hm] at hcheck
    obtain ⟨hsame, hcount, a, ha, hmax, hlanding, slot, hslot, hfresh⟩ := of_decide_eq_true hcheck
    have hys : xs.Perm ys := by decide +kernel
    have hzs : xs.Perm zs := by decide +kernel
    have hfinal := (addSamples_perm hm calls hys).1 hsame
    obtain ⟨-, hcounts, hvalues⟩ := addSamples_perm hm calls hzs
    obtain ⟨b, b', x, y, hb, hb', hx, hy, hxy⟩ := hvalues 1 a ha 0 slot hslot
    rw [hmax, hlanding] at hxy
    have heq : (x == y) = true := hxy (by simp [hfresh]) (by decide +kernel)
    exact ⟨m, rfl, hfinal, hcount, hcounts.symm.trans hcount, b, b', x, y, hb, hb', hx, hy, heq⟩

end Monitor

end MetricAlarm
