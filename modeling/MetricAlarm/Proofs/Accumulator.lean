import MetricAlarm.Accumulator

/-!
# What accumulators compute

An accumulator takes in samples one at a time and keeps no list of them. `aggregate` says what each
statistic makes of a list of samples in the order of their arrival. Main statement: `value_collect`,
an accumulator that took in the samples has that value.
-/

namespace MetricAlarm

/-- A sample: value and timestamp. -/
abbrev Sample := Float × Int

namespace Statistic

/-- An accumulator that took in the samples, one after the other. -/
def collect (kind : Statistic) (samples : List Sample) : Accumulator :=
  samples.foldl (fun a x => a.add x.1 x.2) kind.fresh

theorem collect_append (kind : Statistic) (xs : List Sample) (x : Sample) :
    kind.collect (xs ++ [x]) = (kind.collect xs).add x.1 x.2 := by
  simp [collect]

/-- A sample is all it takes, whatever its value. -/
theorem isInitialized_collect (kind : Statistic) (samples : List Sample) :
    (kind.collect samples).isInitialized = true ↔ samples ≠ [] := by
  rcases samples.eq_nil_or_concat with rfl | ⟨xs, x, rfl⟩
  · cases kind <;> simp [collect, fresh, Accumulator.isInitialized]
  · simp [collect_append]

/-- The sum of the values, from left to right, on top of a first one. -/
def sumFrom (first : Float) (samples : List Sample) : Float :=
  samples.foldl (fun total x => total + x.1) first

/-- The value of the samples: their sum from zero, the sum divided by their number, the smallest or
greatest value, their number, or the value of the newest, of which the first to arrive counts. -/
def aggregate (kind : Statistic) : List Sample → Float
  | [] => noValue
  | x :: xs =>
    match kind with
    | .sum => sumFrom 0 (x :: xs)
    | .average => sumFrom 0 (x :: xs) / Float.ofNat (xs.length + 1)
    | .min => xs.foldl (fun least y => if y.1 < least then y.1 else least) x.1
    | .max => xs.foldl (fun greatest y => if y.1 > greatest then y.1 else greatest) x.1
    | .count => Float.ofNat (xs.length + 1)
    | .last => (xs.foldl (fun newest y => if y.2 > newest.2 then y else newest) x).1

end Statistic

/-! ## Running totals -/

namespace Accumulator

/-- The accumulator after more samples. -/
def addAll (a : Accumulator) (samples : List Sample) : Accumulator :=
  samples.foldl (fun a x => a.add x.1 x.2) a

/-- When a sample takes the state `s` to `step s x`, samples take it to the fold of `step`. -/
theorem addAll_eq {σ : Type} (state : σ → Accumulator) {step : σ → Sample → σ}
    (h : ∀ s x, (state s).add x.1 x.2 = state (step s x)) (s : σ) (xs : List Sample) :
    (state s).addAll xs = state (xs.foldl step s) := by
  induction xs generalizing s with
  | nil => rfl
  | cons x xs ih =>
    rw [List.foldl_cons, ← ih, ← h]
    rfl

theorem addAll_average (total : Float) (n : Nat) (xs : List Sample) :
    (average (some (total, n))).addAll xs =
      average (some (Statistic.sumFrom total xs, xs.length + n)) := by
  induction xs generalizing total n with
  | nil => simp [addAll, Statistic.sumFrom]
  | cons x xs ih =>
    rw [List.length_cons, Nat.add_right_comm, Nat.add_assoc]
    exact ih (total + x.1) (n + 1)

theorem addAll_count (n : Nat) (xs : List Sample) :
    (count n).addAll xs = count (xs.length + n) := by
  induction xs generalizing n with
  | nil => simp [addAll]
  | cons x xs ih =>
    rw [List.length_cons, Nat.add_right_comm, Nat.add_assoc]
    exact ih (n + 1)

end Accumulator

open Accumulator in
/-- The value of an accumulator is the aggregate of the samples that it took in. -/
theorem Statistic.value_collect (kind : Statistic) (samples : List Sample) :
    (kind.collect samples).value = kind.aggregate samples := by
  cases samples with
  | nil => cases kind <;> rfl
  | cons x xs =>
    have hfirst : kind.collect (x :: xs) = (kind.fresh.add x.1 x.2).addAll xs := rfl
    rw [hfirst]
    cases kind with
    | sum =>
      have h := addAll_eq (fun total => .sum (some total)) (fun _ _ => rfl) (0 + x.1) xs
      exact congrArg value h
    | average => exact congrArg value (addAll_average (0 + x.1) 1 xs)
    | min =>
      have h := addAll_eq (fun least => .min (some least)) (fun _ _ => rfl) x.1 xs
      exact congrArg value h
    | max =>
      have h := addAll_eq (fun greatest => .max (some greatest)) (fun _ _ => rfl) x.1 xs
      exact congrArg value h
    | count => exact congrArg value (addAll_count 1 xs)
    | last =>
      have h := addAll_eq (fun newest => .last (some newest)) (fun _ _ => rfl) x xs
      exact congrArg value h

end MetricAlarm
