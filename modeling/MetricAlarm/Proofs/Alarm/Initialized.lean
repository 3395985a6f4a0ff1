import MetricAlarm.Proofs.Accumulator.Summary
import MetricAlarm.Proofs.Alarm.Verdict

/-!
# Verdicts by the slots that have samples

By its specification a sub-alarm judges the slots of the view that are initialized, which are those
with a sample. It goes by their values instead and takes a slot for empty when its value is not a
number. A sample that is not a number, or the sum of two opposite infinities, hides a slot in this
way; the verdict is wrong exactly when nothing else of the view decides it (`Masked`). Main
statement: `evaluate_initialized`.
-/

namespace MetricAlarm

/-! ## Values that are numbers -/

namespace Statistic

/-- Finite samples have a number as their value. -/
theorem isNaN_aggregate (kind : Statistic) {samples : List Sample} (hne : samples ≠ [])
    (hfinite : ∀ x ∈ samples, x.1.isFinite = true) (hlt : samples.length < 2 ^ 53) :
    (kind.aggregate samples).isNaN = false := by
  obtain ⟨x, xs, rfl⟩ := List.exists_cons_of_ne_nil hne
  have hnumber : ∀ y ∈ x :: xs, y.1.isNaN = false := fun y hy =>
    Decimal.isNaN_of_isFinite (hfinite y hy)
  have hsum : (sumFrom 0 (x :: xs)).isNaN = false :=
    List.foldlRecOn (motive := fun total : Float => total.isNaN = false) (x :: xs) _
      (by decide +kernel) fun total htotal y hy => Decimal.isNaN_add htotal (hfinite y hy)
  have hfirst := hnumber x List.mem_cons_self
  have hrest : ∀ y ∈ xs, y.1.isNaN = false := fun y hy => hnumber y (List.mem_cons_of_mem _ hy)
  cases kind with
  | sum => exact hsum
  | average => exact Decimal.isNaN_div_ofNat hsum xs.length.succ_pos hlt
  | count => exact Decimal.isNaN_ofNat xs.length.succ_pos hlt
  | min =>
    refine List.foldlRecOn (motive := fun least : Float => least.isNaN = false) xs _ hfirst ?_
    intro least hleast y hy
    split
    · exact hrest y hy
    · exact hleast
  | max =>
    refine List.foldlRecOn (motive := fun greatest : Float => greatest.isNaN = false) xs _ hfirst ?_
    intro greatest hgreatest y hy
    split
    · exact hrest y hy
    · exact hgreatest
  | last =>
    refine List.foldlRecOn (motive := fun newest : Sample => newest.1.isNaN = false) xs _ hfirst ?_
    intro newest hnewest y hy
    split
    · exact hrest y hy
    · exact hnewest

end Statistic

namespace SubAlarm

/-! ## The specification -/

/-- The periods of the view are counted back from its end. -/
def periodsOf (c : Condition) : Finset Nat := Finset.Icc 1 c.periods.toNat

/-- The value of the samples of one period. -/
def valueOf (c : Condition) (samples : List Sample) : Float :=
  c.function.statistic.aggregate samples

/-- An initialized period that breaches. -/
def Breaches (c : Condition) (samples : List Sample) : Prop :=
  samples ≠ [] ∧ c.breachedBy (valueOf c samples) = true

instance (c : Condition) (samples : List Sample) : Decidable (Breaches c samples) :=
  inferInstanceAs (Decidable (_ ∧ _))

/-- An initialized period that does not breach. -/
def Clears (c : Condition) (samples : List Sample) : Prop :=
  samples ≠ [] ∧ c.breachedBy (valueOf c samples) = false

instance (c : Condition) (samples : List Sample) : Decidable (Clears c samples) :=
  inferInstanceAs (Decidable (_ ∧ _))

/-- The verdict on the samples of the last periods: the alarm is raised when every period is
initialized and breaches, and cleared when an initialized one does not breach or when the condition
is deterministic and none breaches. -/
def judgeInitialized (c : Condition) (samples : Nat → List Sample) : AlarmState :=
  if ∀ k ∈ periodsOf c, Breaches c (samples k) then .alarm
  else if (∃ k ∈ periodsOf c, Clears c (samples k)) ∨
      (c.deterministic = true ∧ ∀ k ∈ periodsOf c, ¬ Breaches c (samples k)) then .ok
  else .undetermined

/-- An initialized period whose value is not a number. -/
def Hidden (c : Condition) (samples : List Sample) : Prop :=
  samples ≠ [] ∧ (valueOf c samples).isNaN = true

instance (c : Condition) (samples : List Sample) : Decidable (Hidden c samples) :=
  inferInstanceAs (Decidable (_ ∧ _))

/-- No number clears the alarm. -/
def NumbersBreach (c : Condition) (samples : Nat → List Sample) : Prop :=
  ∀ k ∈ periodsOf c, (valueOf c (samples k)).isNaN = false →
    c.breachedBy (valueOf c (samples k)) = true

/-- A period is hidden, and the other periods do not make up for it. -/
structure Masked (c : Condition) (samples : Nat → List Sample) : Prop where
  hidden : ∃ k ∈ periodsOf c, Hidden c (samples k)
  breached : NumbersBreach c samples
  undecided : c.deterministic = false ∨ ∃ k ∈ periodsOf c, (valueOf c (samples k)).isNaN = false

instance (c : Condition) (samples : Nat → List Sample) : Decidable (Masked c samples) :=
  decidable_of_iff
    ((∃ k ∈ periodsOf c, Hidden c (samples k)) ∧
      (∀ k ∈ periodsOf c, (valueOf c (samples k)).isNaN = false →
        c.breachedBy (valueOf c (samples k)) = true) ∧
      (c.deterministic = false ∨ ∃ k ∈ periodsOf c, (valueOf c (samples k)).isNaN = false))
    ⟨fun ⟨hidden, breached, undecided⟩ => ⟨hidden, breached, undecided⟩,
      fun h => ⟨h.hidden, h.breached, h.undecided⟩⟩

/-! ## The two verdicts -/

section
variable {c : Condition} {xs : List Sample} {samples : Nat → List Sample}

theorem breachedBy_of_isNaN (c : Condition) {x : Float} (h : x.isNaN = true) :
    c.breachedBy x = false :=
  Decimal.holds_of_isNaN c.comparator (.inl h)

theorem ne_nil_of_number (h : (valueOf c xs).isNaN = false) : xs ≠ [] := by
  rintro rfl
  exact Bool.false_ne_true (h.symm.trans isNaN_noValue)

theorem number_of_breachedBy {x : Float} (h : c.breachedBy x = true) : x.isNaN = false := by
  rw [← Bool.not_eq_true]
  intro hx
  rw [breachedBy_of_isNaN c hx] at h
  cases h

/-- By the specification, a hidden period clears the alarm. -/
theorem Hidden.clears (h : Hidden c xs) : Clears c xs := ⟨h.1, breachedBy_of_isNaN c h.2⟩

theorem judgeInitialized_of_clears {k : Nat} (hk : k ∈ periodsOf c)
    (h : Clears c (samples k)) : judgeInitialized c samples = .ok := by
  have hnot : ¬ ∀ k ∈ periodsOf c, Breaches c (samples k) := by
    intro hall
    exact Bool.false_ne_true (h.2.symm.trans (hall k hk).2)
  rw [judgeInitialized, if_neg hnot, if_pos (.inl ⟨k, hk, h⟩)]

theorem judge_of_clears {k : Nat} (hk : k ∈ periodsOf c)
    (hnumber : (valueOf c (samples k)).isNaN = false)
    (hclear : c.breachedBy (valueOf c (samples k)) = false) :
    judge c (fun k => valueOf c (samples k)) = .ok :=
  if_pos ⟨k, hk, hnumber, hclear⟩

/-- Where the number of every period breaches, the open question is which periods have one. -/
theorem NumbersBreach.judge_eq (h : NumbersBreach c samples) :
    judge c (fun k => valueOf c (samples k)) =
      if ∀ k ∈ periodsOf c, (valueOf c (samples k)).isNaN = false then .alarm
      else if (∀ k ∈ periodsOf c, (valueOf c (samples k)).isNaN = true) ∧
        c.deterministic = true then .ok
      else .undetermined := by
  have hnot : ¬ ∃ k ∈ periodsOf c, (valueOf c (samples k)).isNaN = false ∧
      c.breachedBy (valueOf c (samples k)) = false := by
    rintro ⟨k, hk, hnumber, hclear⟩
    exact Bool.false_ne_true (hclear.symm.trans (h k hk hnumber))
  exact if_neg hnot

/-- A masked view is left open, where the specification clears the alarm. -/
theorem Masked.judged (h : Masked c samples) :
    judge c (fun k => valueOf c (samples k)) = .undetermined ∧
      judgeInitialized c samples = .ok := by
  obtain ⟨k, hk, hhidden⟩ := h.hidden
  refine ⟨?_, judgeInitialized_of_clears hk hhidden.clears⟩
  rw [h.breached.judge_eq, if_neg, if_neg]
  · rintro ⟨hall, hdeterministic⟩
    rcases h.undecided with hopen | ⟨j, hj, hnumber⟩
    · exact Bool.false_ne_true (hopen.symm.trans hdeterministic)
    · exact Bool.false_ne_true (hnumber.symm.trans (hall j hj))
  · intro hall
    exact Bool.false_ne_true ((hall k hk).symm.trans hhidden.2)

/-- Where no period is hidden, to be initialized is to have a number. -/
theorem NumbersBreach.judge_of_none_hidden (hbreached : NumbersBreach c samples)
    (hnone : ∀ k ∈ periodsOf c, ¬ Hidden c (samples k)) :
    judge c (fun k => valueOf c (samples k)) = judgeInitialized c samples := by
  have hbreaches : ∀ k ∈ periodsOf c,
      (Breaches c (samples k) ↔ (valueOf c (samples k)).isNaN = false) := by
    intro k hk
    constructor
    · rintro ⟨-, hb⟩
      exact number_of_breachedBy hb
    · intro hnumber
      exact ⟨ne_nil_of_number hnumber, hbreached k hk hnumber⟩
  have hclears : ¬ ∃ k ∈ periodsOf c, Clears c (samples k) := by
    rintro ⟨k, hk, hne, hclear⟩
    have hnumber : (valueOf c (samples k)).isNaN = false :=
      Bool.eq_false_iff.2 fun hnan => hnone k hk ⟨hne, hnan⟩
    exact Bool.false_ne_true (hclear.symm.trans (hbreached k hk hnumber))
  have hall : (∀ k ∈ periodsOf c, Breaches c (samples k)) ↔
      ∀ k ∈ periodsOf c, (valueOf c (samples k)).isNaN = false :=
    forall₂_congr hbreaches
  have hnever : (∀ k ∈ periodsOf c, ¬ Breaches c (samples k)) ↔
      ∀ k ∈ periodsOf c, (valueOf c (samples k)).isNaN = true := by
    refine forall₂_congr fun k hk => ?_
    rw [hbreaches k hk, Bool.not_eq_false]
  rw [hbreached.judge_eq]
  simp only [judgeInitialized, hall, hnever, hclears, false_or]
  simp only [and_comm]

/-- In a view that is not masked, the verdict is the specified one. -/
theorem judge_of_not_masked (h : ¬ Masked c samples) :
    judge c (fun k => valueOf c (samples k)) = judgeInitialized c samples := by
  by_cases hclear : ∃ k ∈ periodsOf c, (valueOf c (samples k)).isNaN = false ∧
      c.breachedBy (valueOf c (samples k)) = false
  · obtain ⟨k, hk, hnumber, hclear⟩ := hclear
    rw [judge_of_clears hk hnumber hclear,
      judgeInitialized_of_clears hk ⟨ne_nil_of_number hnumber, hclear⟩]
  have hbreached : NumbersBreach c samples := by
    intro k hk hnumber
    by_contra hb
    exact hclear ⟨k, hk, hnumber, Bool.eq_false_iff.2 hb⟩
  by_cases hhidden : ∃ k ∈ periodsOf c, Hidden c (samples k)
  · -- Nothing has a number here, and silence is as good as a value that clears.
    obtain ⟨hdeterministic, hnone⟩ : c.deterministic = true ∧
        ∀ k ∈ periodsOf c, (valueOf c (samples k)).isNaN = true := by
      by_contra hopen
      refine h ⟨hhidden, hbreached, ?_⟩
      by_contra hdecided
      push Not at hdecided
      exact hopen ⟨by simpa using hdecided.1, fun k hk => by simpa using hdecided.2 k hk⟩
    obtain ⟨k, hk, hhidden⟩ := hhidden
    rw [judgeInitialized_of_clears hk hhidden.clears, hbreached.judge_eq, if_neg,
      if_pos ⟨hnone, hdeterministic⟩]
    intro hall
    exact Bool.false_ne_true ((hall k hk).symm.trans hhidden.2)
  · exact hbreached.judge_of_none_hidden fun k hk h => hhidden ⟨k, hk, h⟩

/-- Finite samples mask nothing. -/
theorem not_masked_of_finite
    (hfinite : ∀ k ∈ periodsOf c, ∀ x ∈ samples k, x.1.isFinite = true)
    (hlt : ∀ k ∈ periodsOf c, (samples k).length < 2 ^ 53) :
    ¬ Masked c samples := by
  intro h
  obtain ⟨k, hk, hne, hnan⟩ := h.hidden
  have hnumber := c.function.statistic.isNaN_aggregate hne (hfinite k hk) (hlt k hk)
  exact Bool.false_ne_true (hnumber.symm.trans hnan)

end

/-! ## Evaluations -/

section
variable {c : Condition} {s : Settings} {viewEnd : Int} {a : SubAlarm}

/-- A slot of the view is initialized when a sample of its period was taken. -/
theorem viewSlot_initialized (h : create c s viewEnd = .ok a) (calls : List Call) {k : Nat}
    (hk : k ∈ periodsOf c) :
    ∃ slot, (a.run calls).window.contents[c.periods.toNat - k]? = some slot ∧
      (slot.samples.isInitialized = true ↔
        periodSamples s.resolution (a.run calls).window.viewEnd (slotWidth c s) (a.taken calls) k ≠
          []) ∧
      slot.samples.value = valueOf c
        (periodSamples s.resolution (a.run calls).window.viewEnd (slotWidth c s) (a.taken calls)
          k) := by
  obtain ⟨hpos, hle⟩ := Finset.mem_Icc.1 hk
  have hslot := viewSlot_run h calls (show c.periods.toNat - k < c.periods.toNat by omega)
  rw [Nat.sub_sub_self hle] at hslot
  exact ⟨_, hslot, Statistic.isInitialized_collect _ _, Statistic.value_collect _ _⟩

theorem state_of_due (h : create c s viewEnd = .ok a) (calls : List Call) {now : Int}
    (hdue : (a.run calls).isDue now = true) :
    ((a.run calls).evaluate now).state = judge c fun k => valueOf c
      (periodSamples s.resolution (a.run calls).window.viewEnd (slotWidth c s) (a.taken calls)
        k) := by
  obtain ⟨w, hw, -⟩ := exists_window_of_create h
  obtain ⟨-, hview, -⟩ := Window.create_eq_ok hw
  rw [evaluate, if_pos hdue]
  change verdict (a.run calls).condition (a.run calls).window.viewValues = _
  rw [(sound_run h calls).condition_eq, viewValues_run h]
  exact verdict_periods c _ hview

/-- A slot of the view is initialized when a sample of its period was taken, and has the value of
these samples. A view that is due is judged by its initialized slots as specified, unless it is
masked: then it is left open, where the specification clears the alarm. Finite samples mask
nothing. -/
theorem evaluate_initialized (h : create c s viewEnd = .ok a) (calls : List Call) (now : Int) :
    let last := a.run calls
    let samples := periodSamples s.resolution last.window.viewEnd (slotWidth c s) (a.taken calls)
    (∀ k ∈ periodsOf c, ∃ slot, last.window.contents[c.periods.toNat - k]? = some slot ∧
        (slot.samples.isInitialized = true ↔ samples k ≠ []) ∧
        slot.samples.value = valueOf c (samples k)) ∧
      (last.isDue now = true →
        (¬ Masked c samples → (last.evaluate now).state = judgeInitialized c samples) ∧
        (Masked c samples →
          (last.evaluate now).state = .undetermined ∧ judgeInitialized c samples = .ok)) ∧
      ((∀ x ∈ a.taken calls, x.1.isFinite = true) → (a.taken calls).length < 2 ^ 53 →
        ¬ Masked c samples) := by
  intro last samples
  refine ⟨fun k hk => viewSlot_initialized h calls hk, fun hdue => ?_, fun hfinite hlt => ?_⟩
  · have hstate := state_of_due h calls hdue
    constructor
    · intro hopen
      exact hstate.trans (judge_of_not_masked hopen)
    · intro hmasked
      exact ⟨hstate.trans hmasked.judged.1, hmasked.judged.2⟩
  · have hsub : ∀ k, (samples k).Sublist (a.taken calls) := fun k => List.filter_sublist
    apply not_masked_of_finite
    · intro k _ x hx
      exact hfinite x ((hsub k).subset hx)
    · intro k _
      exact lt_of_le_of_lt (hsub k).length_le hlt

/-- Two periods, of which the newer took infinities that leave no number, or finite samples. -/
theorem evaluate_initialized_two_periods :
    let c : Condition := ⟨.sum, .named "cpu", .gt, 90, 60, 2, false⟩
    let masked : List Call := [.sample 95 30, .sample (1 / 0) 70, .sample (-1 / 0) 80]
    let plain : List Call := [.sample 95 30, .sample 40 70, .sample 60 80]
    ∃ a, create c .default 120 = .ok a ∧
      ((a.run masked).evaluate 131).state = .undetermined ∧
      judgeInitialized c (periodSamples .absolute 120 60 (a.taken masked)) = .ok ∧
      ¬ Masked c (periodSamples .absolute 120 60 (a.taken plain)) ∧
      ((a.run plain).evaluate 131).state = .alarm := by
  intro c masked plain
  have h : create ⟨.sum, .named "cpu", .gt, 90, 60, 2, false⟩ .default 120 = .ok _ := rfl
  obtain ⟨-, hmasked, -⟩ := evaluate_initialized h masked 131
  obtain ⟨-, hplain, hfinite⟩ := evaluate_initialized h plain 131
  obtain ⟨hopen, hclear⟩ := (hmasked (by decide +kernel)).2 (by decide +kernel)
  have hnot := hfinite (by decide +kernel) (by decide +kernel)
  refine ⟨_, h, hopen, hclear, hnot, ?_⟩
  exact ((hplain (by decide +kernel)).1 hnot).trans (by decide +kernel)

/-- A sample that is not a number is taken, and its slot still counts as empty. -/
theorem hidden_sample :
    let c : Condition := ⟨.max, .named "cpu", .gt, 90, 60, 1, false⟩
    ∃ a, create c .default 60 = .ok a ∧ a.taken [.sample noValue 30] = [(noValue, 30)] ∧
      (a.run [.sample noValue 30]).isDue 75 = true ∧
      ((a.run [.sample noValue 30]).evaluate 75).state = .undetermined ∧
      judgeInitialized c (periodSamples .absolute 60 60 [(noValue, 30)]) = .ok := by
  intro c
  have h : create ⟨.max, .named "cpu", .gt, 90, 60, 1, false⟩ .default 60 = .ok _ := rfl
  exact ⟨_, h, by decide +kernel, by decide +kernel, by decide +kernel, by decide +kernel⟩

end

end SubAlarm

end MetricAlarm
