import MetricAlarm.Proofs.Window.Consistency

/-!
# Samples that arrive between two slides

While a window does not slide, its bounds stay, and with them the place that each timestamp leads
to. So a slot takes in the samples that fall into it, in the order of their arrival, and what goes to
other slots in between does not matter. Main statements: `getElem?_run_adds` and `run_adds_congr`.
-/

namespace MetricAlarm.Window

/-- Samples as calls. -/
def adds (samples : List Sample) : List Call := samples.map fun x => .add x.1 x.2 false

/-- The samples whose timestamps lead to a place. -/
def fallingAt (w : Window) (place : Nat) (samples : List Sample) : List Sample :=
  samples.filter fun x => w.placeOf? x.2 = some place

variable {w : Window}

/-! ## One sample -/

theorem placeOf?_of_slots {slots : Array Slot} (h : slots.size = w.slots.size) (t : Int) :
    { w with slots := slots }.placeOf? t = w.placeOf? t := by
  unfold placeOf? physical start
  rw [h]

theorem size_after_add (w : Window) (v : Float) (t : Int) :
    (w.after (.add v t false)).slots.size = w.slots.size := by
  simp only [after, insert?]
  cases w.placeOf? t <;> simp [addAt]

theorem placeOf?_after_add (w : Window) (v : Float) (t t' : Int) :
    (w.after (.add v t false)).placeOf? t' = w.placeOf? t' := by
  rw [after_add_eq]
  exact placeOf?_of_slots (w.size_after_add v t) t'

theorem fallingAt_after_add (w : Window) (v : Float) (t : Int) (place : Nat)
    (samples : List Sample) :
    (w.after (.add v t false)).fallingAt place samples = w.fallingAt place samples := by
  simp only [fallingAt, placeOf?_after_add]

theorem getElem?_after_add (w : Window) (v : Float) (t : Int) (place : Nat) :
    (w.after (.add v t false)).slots[place]? =
      w.slots[place]?.map fun s => if w.placeOf? t = some place then s.add v t else s := by
  have hafter : w.after (.add v t false) = ((w.placeOf? t).map fun p => w.addAt p v t).getD w := rfl
  rw [hafter]
  cases hp : w.placeOf? t with
  | none => simp
  | some p =>
    rw [Option.map_some, Option.getD_some, addAt, Array.getElem?_modify]
    by_cases heq : p = place
    · simp only [heq, if_true]
      rfl
    · simp [heq]

/-! ## Many samples -/

theorem run_adds_cons (w : Window) (x : Sample) (samples : List Sample) :
    w.run (adds (x :: samples)) = (w.after (.add x.1 x.2 false)).run (adds samples) := rfl

theorem size_run_adds (w : Window) (samples : List Sample) :
    (w.run (adds samples)).slots.size = w.slots.size := by
  induction samples generalizing w with
  | nil => rfl
  | cons x samples ih => rw [run_adds_cons, ih, size_after_add]

/-- Samples change nothing but the slots. -/
theorem run_adds_eq (w : Window) (samples : List Sample) :
    w.run (adds samples) = { w with slots := (w.run (adds samples)).slots } := by
  induction samples generalizing w with
  | nil => rfl
  | cons x samples ih =>
    rw [run_adds_cons, ih, after_add_eq]

/-- Each slot takes in the samples that fall into it. -/
theorem getElem?_run_adds (w : Window) (samples : List Sample) (place : Nat) :
    (w.run (adds samples)).slots[place]? =
      w.slots[place]?.map fun s =>
        { s with samples := s.samples.addAll (w.fallingAt place samples) } := by
  induction samples generalizing w with
  | nil => simp [adds, run, fallingAt, Accumulator.addAll]
  | cons x samples ih =>
    rw [run_adds_cons, ih, getElem?_after_add, fallingAt_after_add, Option.map_map]
    congr 1
    funext s
    by_cases hp : w.placeOf? x.2 = some place
    · simp [fallingAt, hp, Slot.add, Accumulator.addAll]
    · simp [fallingAt, hp]

theorem getElem?_contents_run_adds (w : Window) (samples : List Sample) (k : Nat) :
    (w.run (adds samples)).contents[k]? =
      w.contents[k]?.map fun s =>
        { s with samples := s.samples.addAll (w.fallingAt (w.physical k) samples) } := by
  have hsize := w.size_run_adds samples
  have hplace : (w.run (adds samples)).physical k = w.physical k := by
    rw [run_adds_eq, physical, physical, hsize]
  by_cases hk : k < w.slots.size
  · rw [getElem?_contents _ (by rwa [hsize]), getElem?_contents w hk, hplace, getElem?_run_adds]
  · rw [List.getElem?_eq_none (by rw [length_contents]; omega),
      List.getElem?_eq_none (by rw [length_contents]; omega), Option.map_none]

/-- Only the order of the samples within each slot counts. -/
theorem run_adds_congr {samples samples' : List Sample}
    (h : ∀ place < w.slots.size, w.fallingAt place samples = w.fallingAt place samples') :
    w.run (adds samples) = w.run (adds samples') := by
  have hslots : (w.run (adds samples)).slots = (w.run (adds samples')).slots := by
    apply Array.ext_getElem?
    intro place
    rw [getElem?_run_adds, getElem?_run_adds]
    by_cases hp : place < w.slots.size
    · rw [h place hp]
    · rw [Array.getElem?_eq_none (Nat.not_lt.1 hp)]
      rfl
  rw [run_adds_eq w samples, hslots, ← run_adds_eq]

end MetricAlarm.Window
