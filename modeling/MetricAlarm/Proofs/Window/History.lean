import MetricAlarm.Proofs.Accumulator
import MetricAlarm.Proofs.Window.Ring

/-!
# What a window remembers

A run is any sequence of samples and slides. `history` lists, for a start of a slot, the samples of
a run that belong to it, whether or not the slot is still in the window. Main statement:
`run_reads`, every slot that a window shows after a run holds exactly its history.
-/

namespace MetricAlarm

namespace Window

/-! ## Runs -/

inductive Call
  | add (value : Float) (timestamp : Int) (force : Bool)
  | slide (timestamp minDelay : Int)

/-- The window after a call; a sample that is refused changes nothing. -/
def after (w : Window) : Call → Window
  | .add v t force => (w.insert? v t force).getD w
  | .slide t d => w.slideTo t d

def run (w : Window) (calls : List Call) : Window := calls.foldl after w

/-- Whether a timestamp, as rounded, lies in the window. -/
def Covers (w : Window) (t : Int) : Prop :=
  w.start ≤ w.resolution.adjust t ∧ w.resolution.adjust t < w.windowEnd

instance (w : Window) (t : Int) : Decidable (w.Covers t) := inferInstanceAs (Decidable (_ ∧ _))

/-- Whether the slot that starts at `s` is the one for a timestamp. -/
def Meets (w : Window) (s t : Int) : Prop :=
  s ≤ w.resolution.adjust t ∧ w.resolution.adjust t < s + w.slotWidth

instance (w : Window) (s t : Int) : Decidable (w.Meets s t) := inferInstanceAs (Decidable (_ ∧ _))

/-- The sample that a call brings to the slot that starts at `s`: a forced one goes to the oldest
slot, another one to its own slot if the window covers it. -/
def brings (w : Window) (s : Int) : Call → List Sample
  | .add v t true => if s = w.start then [(v, t)] else []
  | .add v t false => if w.Covers t ∧ w.Meets s t then [(v, t)] else []
  | .slide _ _ => []

/-- The samples that a run brings to the slot that starts at `s`, in the order of the calls. -/
def history (s : Int) (w : Window) : List Call → List Sample
  | [] => []
  | c :: calls => w.brings s c ++ history s (w.after c) calls

/-! ## The slot of a timestamp -/

variable {kind : Statistic} {w : Window}

/-- Slots do not overlap. -/
theorem Regular.meets_iff (h : Regular kind w) {i j : Nat} {t : Int}
    (hi : w.Meets (w.start + i * w.slotWidth) t) :
    w.Meets (w.start + j * w.slotWidth) t ↔ j = i := by
  constructor
  · intro hj
    have hw := h.width_pos
    obtain ⟨hi₁, hi₂⟩ := hi
    obtain ⟨hj₁, hj₂⟩ := hj
    have hle {a b : Nat} (hab : (a : Int) * w.slotWidth < b * w.slotWidth + w.slotWidth) :
        a ≤ b := by
      have : (a : Int) * w.slotWidth < (b + 1) * w.slotWidth := by rw [Int.add_mul]; omega
      have := Int.lt_of_mul_lt_mul_right this (Int.le_of_lt hw)
      omega
    exact Nat.le_antisymm (hle (by omega)) (hle (by omega))
  · rintro rfl
    exact hi

theorem Regular.exists_slot (h : Regular kind w) {t : Int} (hc : w.Covers t) :
    ∃ i < w.slots.size, w.Meets (w.start + (i : Nat) * w.slotWidth) t ∧
      w.placeOf? t = some (w.physical i) := by
  have hw := h.width_pos
  obtain ⟨hl, hu⟩ := hc
  have hend := h.windowEnd_eq_start
  have hnot : ¬ (w.resolution.adjust t < w.start ∨ w.windowEnd ≤ w.resolution.adjust t) := by omega
  let q := (w.resolution.adjust t - w.start) / w.slotWidth
  have hq : 0 ≤ q := Int.ediv_nonneg (by omega) (Int.le_of_lt hw)
  have hql : q * w.slotWidth ≤ w.resolution.adjust t - w.start := Int.ediv_mul_le _ (by omega)
  have hqu : w.resolution.adjust t - w.start < q * w.slotWidth + w.slotWidth := by
    have := Int.lt_ediv_add_one_mul_self (w.resolution.adjust t - w.start) hw
    rwa [Int.add_mul, Int.one_mul] at this
  have hcast : ((q.toNat : Nat) : Int) = q := Int.toNat_of_nonneg hq
  refine ⟨q.toNat, ?_, ⟨by rw [hcast]; omega, by rw [hcast]; omega⟩, ?_⟩
  · have : q * w.slotWidth < w.slots.size * w.slotWidth := by omega
    have := Int.lt_of_mul_lt_mul_right this (Int.le_of_lt hw)
    omega
  · simp only [placeOf?, if_neg hnot]
    rfl

theorem Regular.covers_of_meets (h : Regular kind w) {t : Int} {i : Nat} (hi : i < w.slots.size)
    (hm : w.Meets (w.start + i * w.slotWidth) t) : w.Covers t := by
  have hw := h.width_pos
  have hend := h.windowEnd_eq_start
  obtain ⟨hl, hu⟩ := hm
  have h₀ : 0 ≤ (i : Int) * w.slotWidth := Int.mul_nonneg (by omega) (by omega)
  have h₁ : (i + 1 : Int) * w.slotWidth ≤ w.slots.size * w.slotWidth :=
    Int.mul_le_mul_of_nonneg_right (by omega) (by omega)
  rw [Int.add_mul] at h₁
  exact ⟨by omega, by omega⟩

theorem Regular.placeOf?_eq (h : Regular kind w) {t : Int} {i : Nat} (hi : i < w.slots.size)
    (hm : w.Meets (w.start + i * w.slotWidth) t) : w.placeOf? t = some (w.physical i) := by
  obtain ⟨j, -, hj, hp⟩ := h.exists_slot (h.covers_of_meets hi hm)
  rwa [(h.meets_iff hj).1 hm]

theorem placeOf?_isSome (t : Int) : (w.placeOf? t).isSome = true ↔ w.Covers t := by
  simp only [placeOf?, Covers]
  split
  · simp
    omega
  · simp
    omega

/-- A sample is taken exactly when it is forced or the window covers its timestamp. -/
theorem insert?_isSome (v : Float) (t : Int) (force : Bool) :
    (w.insert? v t force).isSome = true ↔ force = true ∨ w.Covers t := by
  cases force
  · simp [insert?, placeOf?_isSome]
  · simp [insert?]

/-! ## The window shows a stretch of the record -/

/-- The slot that starts at `s`, with the samples that a record keeps for it. -/
def slotOf (kind : Statistic) (record : Int → List Sample) (s : Int) : Slot :=
  ⟨s, kind.collect (record s)⟩

/-- The slots hold what a record keeps for them, and it keeps nothing for slots still to come. -/
structure Shows (kind : Statistic) (record : Int → List Sample) (w : Window) : Prop where
  contents_eq : w.contents = (List.range w.slots.size).map fun i : Nat =>
    slotOf kind record (w.start + i * w.slotWidth)
  future : ∀ s, w.windowEnd ≤ s → record s = []

theorem shows_create {shape : WindowShape} {w : Window} (h : create shape = .ok w) :
    Shows shape.kind (fun _ => []) w :=
  ⟨contents_create h, fun _ _ => rfl⟩

theorem Regular.slot_inj (h : Regular kind w) {i j : Nat} :
    w.start + i * w.slotWidth = w.start + j * w.slotWidth ↔ i = j := by
  have hw := h.width_pos
  constructor
  · intro he
    have : (i : Int) * w.slotWidth = j * w.slotWidth := by omega
    exact Int.ofNat.inj (Int.eq_of_mul_eq_mul_right (by omega) this)
  · rintro rfl
    rfl

theorem Regular.slot_lt (h : Regular kind w) {i : Nat} (hi : i < w.slots.size) :
    w.start + i * w.slotWidth < w.windowEnd := by
  have := Int.mul_lt_mul_of_pos_right (Int.ofNat_lt.2 hi) h.width_pos
  rw [h.windowEnd_eq_start]
  omega

/-- Only the record of the slots in the window and of those to come counts. -/
theorem Shows.congr {record record' : Int → List Sample} (hs : Shows kind record w)
    (hr : ∀ i < w.slots.size, record (w.start + (i : Nat) * w.slotWidth) =
      record' (w.start + (i : Nat) * w.slotWidth))
    (hf : ∀ s, w.windowEnd ≤ s → record' s = []) : Shows kind record' w := by
  refine ⟨?_, hf⟩
  rw [hs.contents_eq]
  apply List.map_congr_left
  intro i hi
  simp only [slotOf, hr i (List.mem_range.1 hi)]

theorem Shows.addAt {record : Int → List Sample} (h : Regular kind w) (hs : Shows kind record w)
    {i : Nat} (hi : i < w.slots.size) (v : Float) (t : Int) :
    Shows kind (fun s => record s ++ if s = w.start + i * w.slotWidth then [(v, t)] else [])
      (w.addAt (w.physical i) v t) := by
  constructor
  · rw [contents_addAt w hi, hs.contents_eq]
    apply List.ext_getElem
    · simp [Window.addAt]
    · intro j h₁ h₂
      simp only [List.getElem_modify, List.getElem_map, List.getElem_range]
      change _ = slotOf kind _ (w.start + j * w.slotWidth)
      by_cases hj : i = j
      · subst hj
        simp [slotOf, Slot.add, Statistic.collect_append]
      · have hne : ¬ (w.start + j * w.slotWidth = w.start + i * w.slotWidth) := by
          rw [h.slot_inj]
          exact fun he => hj he.symm
        simp [slotOf, hj, hne]
  · intro s hle
    change w.windowEnd ≤ s at hle
    have hlt := h.slot_lt hi
    rw [hs.future s hle, if_neg (by omega)]
    rfl

/-- What a window shows goes on with empty slots behind it. -/
theorem Shows.stretch {record : Int → List Sample} (h : Regular kind w)
    (hs : Shows kind record w) (n : Nat) :
    w.contents ++ emptySlots kind w.windowEnd w.slotWidth n =
      (List.range (w.slots.size + n)).map fun i : Nat =>
        slotOf kind record (w.start + i * w.slotWidth) := by
  have hw := h.width_pos
  have hend := h.windowEnd_eq_start
  rw [List.range_add, List.map_append, hs.contents_eq, emptySlots, List.map_map]
  congr 1
  apply List.map_congr_left
  intro k _
  have hk : 0 ≤ (k : Int) * w.slotWidth := Int.mul_nonneg (by omega) (by omega)
  have hslot : w.start + ((w.slots.size + k : Nat) : Int) * w.slotWidth =
      w.windowEnd + k * w.slotWidth := by
    rw [Int.natCast_add, Int.add_mul]
    omega
  rw [Function.comp, hslot, slotOf, hs.future _ (by omega)]
  rfl

theorem Shows.advance {record : Int → List Sample} (h : Regular kind w) (hs : Shows kind record w)
    (n : Nat) : Shows kind record (w.advance n) := by
  have hn : 0 ≤ (n : Int) * w.slotWidth :=
    Int.mul_nonneg (by omega) (by have := h.width_pos; omega)
  constructor
  · rw [contents_advance h.size_pos h.kind_eq, hs.stretch h, start_advance h.base_lt,
      slotWidth_advance h.base_lt, size_advance]
    apply List.ext_getElem
    · simp
    · intro i h₁ h₂
      simp only [List.getElem_drop, List.getElem_map, List.getElem_range, Int.natCast_add,
        Int.add_mul, Int.add_assoc]
  · intro s hle
    rw [windowEnd_advance h.base_lt] at hle
    exact hs.future s (by omega)

/-! ## Calls and runs -/

theorem insert?_of_not_covers {v : Float} {t : Int} (hc : ¬ w.Covers t) :
    w.insert? v t false = none := by
  rw [← Option.not_isSome_iff_eq_none, insert?_isSome]
  simpa using hc

theorem Regular.insert?_eq (h : Regular kind w) {v : Float} {t : Int} {i : Nat}
    (hi : i < w.slots.size) (hm : w.Meets (w.start + i * w.slotWidth) t) :
    w.insert? v t false = some (w.addAt (w.physical i) v t) := by
  simp [Window.insert?, h.placeOf?_eq hi hm]

theorem slideTo_eq_advance (w : Window) (t d : Int) : ∃ n, w.slideTo t d = w.advance n := by
  unfold slideTo
  split
  · exact ⟨_, rfl⟩
  · exact ⟨0, rfl⟩

theorem Regular.slideTo (h : Regular kind w) (t d : Int) : Regular kind (w.slideTo t d) := by
  obtain ⟨n, hn⟩ := slideTo_eq_advance w t d
  rw [hn]
  exact h.advance n

theorem Regular.after (h : Regular kind w) (c : Call) : Regular kind (w.after c) := by
  cases c with
  | slide t d => exact h.slideTo t d
  | add v t force =>
    cases force with
    | true => exact h.addAt _ v t
    | false =>
      by_cases hc : w.Covers t
      · obtain ⟨i, hi, hm, -⟩ := h.exists_slot hc
        rw [Window.after, h.insert?_eq hi hm]
        exact h.addAt _ v t
      · rw [Window.after, insert?_of_not_covers hc]
        exact h

/-- One call adds to the record exactly what it brings. -/
theorem Shows.after {record : Int → List Sample} (h : Regular kind w) (hs : Shows kind record w)
    (c : Call) : Shows kind (fun s => record s ++ w.brings s c) (w.after c) := by
  cases c with
  | slide t d =>
    obtain ⟨n, hn⟩ := slideTo_eq_advance w t d
    simpa [Window.after, brings, hn] using hs.advance h n
  | add v t force =>
    cases force with
    | true => simpa [brings, Window.after, Window.insert?] using hs.addAt h h.size_pos v t
    | false =>
      by_cases hc : w.Covers t
      · obtain ⟨i, hi, hm, -⟩ := h.exists_slot hc
        rw [Window.after, h.insert?_eq hi hm]
        refine (hs.addAt h hi v t).congr (fun j hj => ?_) (fun s hle => ?_)
        · change record (w.start + j * w.slotWidth) ++
              (if w.start + j * w.slotWidth = w.start + i * w.slotWidth then [(v, t)] else []) =
            record (w.start + j * w.slotWidth) ++ w.brings (w.start + j * w.slotWidth) _
          simp only [brings, hc, true_and, h.meets_iff hm, h.slot_inj]
        · change w.windowEnd ≤ s at hle
          have hn : ¬ (w.Covers t ∧ w.Meets s t) := by
            rintro ⟨⟨-, hu⟩, hl, -⟩
            omega
          simp only [brings, if_neg hn, hs.future s hle, List.append_nil]
      · simpa [brings, Window.after, insert?_of_not_covers hc, hc] using hs

theorem Regular.run (h : Regular kind w) (calls : List Call) : Regular kind (w.run calls) := by
  induction calls generalizing w with
  | nil => exact h
  | cons c calls ih => exact ih (h.after c)

theorem Shows.run {record : Int → List Sample} (h : Regular kind w) (hs : Shows kind record w)
    (calls : List Call) : Shows kind (fun s => record s ++ history s w calls) (w.run calls) := by
  induction calls generalizing w record with
  | nil => simpa [history, Window.run] using hs
  | cons c calls ih =>
    have := ih (h.after c) (hs.after h c)
    simpa only [history, List.append_assoc, Window.run, List.foldl_cons] using this

/-! ## Reads -/

theorem Shows.oldest {record : Int → List Sample} (hs : Shows kind record w) {n : Nat}
    (hn : n ≤ w.slots.size) :
    w.oldest n = (List.range n).map fun i : Nat =>
      (kind.collect (record (w.start + i * w.slotWidth))).value := by
  apply List.map_congr_left
  intro i hi
  have hi : i < w.slots.size := Nat.lt_of_lt_of_le (List.mem_range.1 hi) hn
  rw [valueAt_physical w (s := slotOf kind record (w.start + i * w.slotWidth))]
  · rfl
  · simp [hs.contents_eq, hi]

theorem Shows.get {record : Int → List Sample} (h : Regular kind w) (hs : Shows kind record w)
    {t : Int} {i : Nat} (hi : i < w.slots.size) (hm : w.Meets (w.start + i * w.slotWidth) t) :
    w.get t = .ok (kind.collect (record (w.start + i * w.slotWidth))).value := by
  have hv := valueAt_physical w (i := i) (s := slotOf kind record (w.start + i * w.slotWidth))
    (by simp [hs.contents_eq, hi])
  simp only [Window.get, find, h.placeOf?_eq hi hm, Except.map, hv]
  rfl

theorem Shows.upTo {record : Int → List Sample} (h : Regular kind w) (hs : Shows kind record w)
    {t : Int} {i : Nat} (hi : i < w.slots.size) (hm : w.Meets (w.start + i * w.slotWidth) t) :
    w.upTo t = .ok ((List.range (i + 1)).map fun j : Nat =>
      (kind.collect (record (w.start + j * w.slotWidth))).value) := by
  simp only [Window.upTo, find, h.placeOf?_eq hi hm, Except.map, logical_physical h.base_lt hi,
    hs.oldest (show i + 1 ≤ w.slots.size from hi)]

/-- Calls change neither the number of the slots, nor their width, nor how many of them are seen. -/
theorem Regular.frame_after (h : Regular kind w) (c : Call) :
    (w.after c).slots.size = w.slots.size ∧ (w.after c).viewSlots = w.viewSlots ∧
      (w.after c).slotWidth = w.slotWidth ∧ (w.after c).resolution = w.resolution := by
  cases c with
  | slide t d =>
    obtain ⟨n, hn⟩ := slideTo_eq_advance w t d
    rw [Window.after, hn]
    refine ⟨size_advance w n, ?_⟩
    rw [advance_eq_skip h.base_lt]
    exact ⟨rfl, rfl, rfl⟩
  | add v t force =>
    simp only [Window.after, Window.insert?]
    split
    · simp [Window.addAt]
    · cases w.placeOf? t <;> simp [Window.addAt]

theorem Regular.frame_run (h : Regular kind w) (calls : List Call) :
    (w.run calls).slots.size = w.slots.size ∧ (w.run calls).viewSlots = w.viewSlots ∧
      (w.run calls).slotWidth = w.slotWidth ∧ (w.run calls).resolution = w.resolution := by
  induction calls generalizing w with
  | nil => exact ⟨rfl, rfl, rfl, rfl⟩
  | cons c calls ih =>
    obtain ⟨h₁, h₂, h₃, h₄⟩ := h.frame_after c
    obtain ⟨h₁', h₂', h₃', h₄'⟩ := ih (h.after c)
    exact ⟨h₁'.trans h₁, h₂'.trans h₂, h₃'.trans h₃, h₄'.trans h₄⟩

theorem frame_create {shape : WindowShape} (h : create shape = .ok w) :
    w.slots.size = shape.viewSlots + shape.futureSlots ∧ w.viewSlots = shape.viewSlots ∧
      w.slotWidth = shape.slotWidth ∧ w.resolution = shape.resolution := by
  obtain ⟨-, -, -, rfl⟩ := create_eq_ok h
  exact ⟨by simp [freshSlots], rfl, rfl, rfl⟩

/-- After any run the window has the slots of its shape, each read gives for a slot the value of
exactly the samples of its history, and a sample was taken exactly when it was forced or the window
covered it at that moment. -/
theorem run_reads {shape : WindowShape} {w : Window} (h : create shape = .ok w)
    (calls : List Call) :
    let last := w.run calls
    let slot := fun i : Nat => last.start + i * shape.slotWidth
    let value := fun i : Nat => (shape.kind.collect (history (slot i) w calls)).value
    last.values = (List.range (shape.viewSlots + shape.futureSlots)).map value ∧
    last.viewValues = (List.range shape.viewSlots).map value ∧
    (∀ t : Int, ∀ i < shape.viewSlots + shape.futureSlots,
      slot i ≤ shape.resolution.adjust t → shape.resolution.adjust t < slot i + shape.slotWidth →
        last.get t = .ok (value i) ∧ last.upTo t = .ok ((List.range (i + 1)).map value)) ∧
    (∀ before v t force later, calls = before ++ .add v t force :: later →
      (((w.run before).insert? v t force).isSome = true ↔
        force = true ∨ (w.run before).Covers t)) := by
  have hr := (regular_create h).run calls
  have hs : Shows shape.kind (fun s => history s w calls) (w.run calls) := by
    simpa using (shows_create h).run (regular_create h) calls
  obtain ⟨hn, hv, hw, ha⟩ := frame_create h
  obtain ⟨hn', hv', hw', ha'⟩ := (regular_create h).frame_run calls
  rw [hn] at hn'
  rw [hv] at hv'
  rw [hw] at hw'
  rw [ha] at ha'
  rw [← hn', ← hv', ← hw', ← ha']
  refine ⟨hs.oldest (Nat.le_refl _), hs.oldest hr.view_le, ?_, ?_⟩
  · intro t i hi hl hu
    exact ⟨hs.get hr hi ⟨hl, hu⟩, hs.upTo hr hi ⟨hl, hu⟩⟩
  · intro before v t force later _
    exact insert?_isSome v t force

/-- A jump of many laps, a forced sample that comes late, and one that is refused. -/
theorem run_reads_laps :
    ∃ w, create ⟨.last, .seconds, 5000, 3, 2, 20999⟩ = .ok w ∧
      (w.run [.add 1 5999 false, .slide 1020000 0, .add 2 1029999 false, .slide 1036000 0,
        .add 3 100 true, .add 4 1024999 false, .add 5 1034999 false]).viewValues =
        [(Statistic.last.collect [(2, 1029999), (3, 100)]).value,
          (Statistic.last.collect [(5, 1034999)]).value, noValue] := by
  have h : create ⟨.last, .seconds, 5000, 3, 2, 20999⟩ = .ok _ := rfl
  refine ⟨_, h, ?_⟩
  rw [(run_reads h _).2.1]
  decide +kernel

end Window

end MetricAlarm
