import Mathlib.Data.List.DropRight
import MetricAlarm.Proofs.Accumulator.Summary

/-!
# What a reset leaves

Samples and resets come in any order. A reset takes an accumulator back to the state in which it was
made, so that it never tells more than the samples since the last one. Main statements:
`run_fresh` and `run_summarizes`.
-/

namespace MetricAlarm

namespace Accumulator

/-! ## Runs -/

inductive Call
  | add (value : Float) (timestamp : Int)
  | reset

def Call.sample? : Call → Option Sample
  | .add v t => some (v, t)
  | .reset => none

def after (a : Accumulator) : Call → Accumulator
  | .add v t => a.add v t
  | .reset => a.reset

def run (a : Accumulator) (calls : List Call) : Accumulator := calls.foldl after a

/-- The samples that were added since the last reset, in the order of their arrival. -/
def sinceReset (calls : List Call) : List Sample :=
  (calls.rtakeWhile fun c => c.sample?.isSome).filterMap Call.sample?

theorem run_append (a : Accumulator) (calls later : List Call) :
    a.run (calls ++ later) = (a.run calls).run later := by
  simp [run]

theorem sinceReset_add (calls : List Call) (v : Float) (t : Int) :
    sinceReset (calls ++ [.add v t]) = sinceReset calls ++ [(v, t)] := by
  rw [sinceReset, List.rtakeWhile_concat_pos _ _ _ rfl, List.filterMap_append]
  rfl

theorem sinceReset_reset (calls : List Call) : sinceReset (calls ++ [.reset]) = [] := by
  rw [sinceReset, List.rtakeWhile_concat_neg _ _ _ Bool.false_ne_true]
  rfl

/-! ## The state after a run -/

theorem kind_run (a : Accumulator) (calls : List Call) : (a.run calls).kind = a.kind := by
  induction calls generalizing a with
  | nil => rfl
  | cons c calls ih =>
    refine (ih (a.after c)).trans ?_
    cases c with
    | add v t => exact a.kind_add v t
    | reset => exact a.kind_reset

/-- A reset accumulator is a new one. -/
theorem run_reset (kind : Statistic) (before later : List Call) :
    kind.fresh.run (before ++ .reset :: later) = kind.fresh.run later := by
  rw [run_append]
  change (kind.fresh.run before).reset.run later = _
  rw [Accumulator.reset, kind_run, kind_fresh]

/-- The state is that of an accumulator that took in the samples since the last reset and no
others. -/
theorem run_fresh (kind : Statistic) (calls : List Call) :
    kind.fresh.run calls = kind.collect (sinceReset calls) := by
  induction calls using List.reverseRecOn with
  | nil => rfl
  | append_singleton calls c ih =>
    cases c with
    | add v t =>
      rw [run_append, ih, sinceReset_add, Statistic.collect_append]
      rfl
    | reset =>
      rw [run_reset, sinceReset_reset]
      rfl

/-- An accumulator is initialized exactly when samples were added since the last reset. Without any
its value is not a number; otherwise it is what the statistic says of them. What was added before a
reset does not matter for anything later. -/
theorem run_summarizes (kind : Statistic) (calls : List Call) :
    let a := kind.fresh.run calls
    let samples := sinceReset calls
    (a.isInitialized = true ↔ samples ≠ []) ∧
      (samples = [] → a.value.isNaN = true) ∧
      (samples ≠ [] → kind.Summarizes a.value samples) ∧
      ∀ before later, kind.fresh.run (before ++ .reset :: later) = kind.fresh.run later := by
  intro a samples
  have ha : a = kind.collect samples := run_fresh kind calls
  refine ⟨?_, fun hnil => ?_, fun hne => ?_, run_reset kind⟩
  · rw [ha]
    exact kind.isInitialized_collect samples
  · rw [ha, kind.value_collect, hnil]
    exact isNaN_noValue
  · rw [ha, kind.value_collect]
    exact kind.summarizes_aggregate hne

/-- Only timestamps before zero, two of them equal, and a value from before the reset that is greater
and newer than all that follow. -/
theorem run_summarizes_early :
    let calls : List Call :=
      [.add 9 100, .reset, .add (-1) (-5), .add 2 (-3), .add 3 (-3), .add 7 (-4)]
    sinceReset calls = [(-1, -5), (2, -3), (3, -3), (7, -4)] ∧
      (∃ newest, Newest (sinceReset calls) newest ∧
        (Statistic.last.fresh.run calls).value = newest.1) ∧
      (Statistic.last.fresh.run calls).value = 2 ∧
      Best (· ≥ ·) [-1, 2, 3, 7] (Statistic.max.fresh.run calls).value := by
  intro calls
  have hsamples : sinceReset calls = [(-1, -5), (2, -3), (3, -3), (7, -4)] := by decide +kernel
  have hne : sinceReset calls ≠ [] := by
    rw [hsamples]
    exact List.cons_ne_nil _ _
  have hmax := (run_summarizes .max calls).2.2.1 hne
  rw [hsamples] at hmax
  refine ⟨hsamples, (run_summarizes .last calls).2.2.1 hne, by decide +kernel, hmax ?_⟩
  decide +kernel

end Accumulator

end MetricAlarm
