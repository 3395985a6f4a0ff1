import Mathlib.Data.List.Rotate
import Mathlib.Data.Nat.ModEq
import MetricAlarm.Window.Slide

/-!
# The ring as a queue

Read from the oldest slot on, the slots of a window are a queue: `contents`. A sample changes one
slot of it, and a move drops slots in front and puts empty ones behind. Main statements:
`contents_addAt`, `contents_advance`, and `advance_eq_skip`, which says that a move changes nothing
but the slots and the bounds. `Regular` is what all windows have in common.
-/

namespace MetricAlarm

/-- The slot with one more sample. -/
def Slot.add (s : Slot) (value : Float) (timestamp : Int) : Slot :=
  { s with samples := s.samples.add value timestamp }

/-- A slot without samples. -/
def Slot.empty (kind : Statistic) (start : Int) : Slot := ⟨start, kind.fresh⟩

namespace Window

/-- The slots from the oldest to the newest. -/
def contents (w : Window) : List Slot := w.slots.toList.rotate w.base

@[simp] theorem length_contents (w : Window) : w.contents.length = w.slots.size := by
  simp [contents]

theorem mem_contents {w : Window} {s : Slot} : s ∈ w.contents ↔ s ∈ w.slots := by
  simp [contents]

theorem getElem?_contents (w : Window) {i : Nat} (hi : i < w.slots.size) :
    w.contents[i]? = w.slots[w.physical i]? := by
  have hp := physical_lt (Nat.zero_lt_of_lt hi) i
  rw [contents, List.getElem?_rotate (by simpa using hi), Array.getElem?_toList]
  simp [physical, Nat.add_comm]

theorem valueAt_physical (w : Window) {i : Nat} {s : Slot} (hs : w.contents[i]? = some s) :
    w.valueAt (w.physical i) = s.samples.value := by
  have hi : i < w.slots.size := by simpa using (List.getElem?_eq_some_iff.1 hs).1
  rw [getElem?_contents w hi] at hs
  simp [valueAt, hs]

/-- Different slots have different places. -/
theorem physical_inj {w : Window} {i j : Nat} (hi : i < w.slots.size) (hj : j < w.slots.size) :
    w.physical i = w.physical j ↔ i = j := by
  constructor
  · intro h
    have h : i ≡ j [MOD w.slots.size] := Nat.ModEq.add_left_cancel' w.base h
    rwa [Nat.ModEq, Nat.mod_eq_of_lt hi, Nat.mod_eq_of_lt hj] at h
  · rintro rfl
    rfl

/-- The logical number undoes the place. -/
theorem logical_physical {w : Window} (hb : w.base < w.slots.size) {i : Nat}
    (hi : i < w.slots.size) : w.logical (w.physical i) = i := by
  unfold logical physical
  by_cases h : w.base + i < w.slots.size
  · rw [Nat.mod_eq_of_lt h, show w.base + i + w.slots.size - w.base = i + w.slots.size by omega,
      Nat.add_mod_right, Nat.mod_eq_of_lt hi]
  · have hp : (w.base + i) % w.slots.size = w.base + i - w.slots.size := by
      rw [Nat.mod_eq_sub_mod (by omega), Nat.mod_eq_of_lt (by omega)]
    rw [hp, Nat.mod_eq_of_lt (by omega)]
    omega

/-! ## Samples -/

theorem contents_addAt (w : Window) {i : Nat} (hi : i < w.slots.size) (v : Float) (t : Int) :
    (w.addAt (w.physical i) v t).contents = w.contents.modify i (·.add v t) := by
  apply List.ext_getElem?
  intro j
  by_cases hj : j < w.slots.size
  · rw [List.getElem?_modify, getElem?_contents w hj,
      getElem?_contents _ (by simpa [addAt] using hj)]
    have hp : (w.addAt (w.physical i) v t).physical j = w.physical j := by
      simp [physical, addAt]
    rw [hp]
    simp only [addAt, Array.getElem?_modify, physical_inj hi hj]
    split <;> simp [Slot.add]
  · rw [List.getElem?_eq_none (by simpa [addAt] using hj),
      List.getElem?_eq_none (by simpa using hj)]

/-! ## Moves -/

@[simp] theorem size_rotate (w : Window) : w.rotate.slots.size = w.slots.size := by
  simp [rotate]

theorem physical_rotate (w : Window) (i : Nat) : w.rotate.physical i = w.physical (i + 1) := by
  simp only [physical, size_rotate]
  simp [rotate, Nat.add_assoc, Nat.add_comm 1 i]

/-- The place of the newest slot is where the oldest was. -/
theorem physical_size (w : Window) : w.physical w.slots.size = w.physical 0 := by
  simp [physical]

theorem contents_rotate {kind : Statistic} {w : Window} (hn : 0 < w.slots.size)
    (hk : ∀ s ∈ w.slots, s.samples.kind = kind) :
    w.rotate.contents = w.contents.tail ++ [.empty kind w.windowEnd] := by
  have hnew : (w.base + 1) % w.slots.size + (w.slots.size - 1) ≡ w.base + w.slots.size
      [MOD w.slots.size] := by
    have : w.base + w.slots.size = w.base + 1 + (w.slots.size - 1) := by omega
    rw [this]
    exact (Nat.mod_modEq _ _).add_right _
  have hslots : w.rotate.slots = w.slots.modify (w.physical 0)
      fun s => ⟨w.windowEnd, s.samples.reset⟩ := by
    rw [← physical_size]
    exact congrArg (fun i => w.slots.modify i fun s => ⟨w.windowEnd, s.samples.reset⟩) hnew
  apply List.ext_getElem?
  intro i
  by_cases hi : i < w.slots.size
  · rw [getElem?_contents _ (by simpa using hi), physical_rotate, hslots, Array.getElem?_modify]
    by_cases hlast : i + 1 = w.slots.size
    · rw [hlast, physical_size, if_pos rfl, List.getElem?_append_right (by simp; omega),
        Array.getElem?_eq_getElem (physical_lt hn 0)]
      have := hk _ (Array.getElem_mem (physical_lt hn 0))
      simp [Accumulator.reset, this, Slot.empty, show i - (w.slots.size - 1) = 0 by omega]
    · have hi' : i + 1 < w.slots.size := by omega
      rw [if_neg (by rw [physical_inj hn hi']; omega),
        List.getElem?_append_left (by simp; omega), List.getElem?_tail, getElem?_contents _ hi']
  · rw [List.getElem?_eq_none (by simpa using hi), List.getElem?_eq_none (by simp; omega)]

theorem kind_rotate {kind : Statistic} {w : Window} (hk : ∀ s ∈ w.slots, s.samples.kind = kind) :
    ∀ s ∈ w.rotate.slots, s.samples.kind = kind := by
  intro s hs
  obtain ⟨i, hi, rfl⟩ := Array.getElem_of_mem hs
  simp only [rotate, Array.getElem_modify]
  split
  · simp [hk]
  · exact hk _ (Array.getElem_mem _)

/-- The slots behind a window whose end is `t`, all empty. -/
def emptySlots (kind : Statistic) (t slotWidth : Int) (n : Nat) : List Slot :=
  (List.range n).map fun j : Nat => .empty kind (t + j * slotWidth)

theorem contents_rotateBy {kind : Statistic} {w : Window} (hn : 0 < w.slots.size)
    (hk : ∀ s ∈ w.slots, s.samples.kind = kind) (n : Nat) :
    (w.rotateBy n).contents = (w.contents ++ emptySlots kind w.windowEnd w.slotWidth n).drop n := by
  induction n generalizing w with
  | zero => simp [rotateBy, emptySlots]
  | succ n ih =>
    have hc : w.contents ≠ [] := by
      rw [← List.length_pos_iff, length_contents]
      exact hn
    obtain ⟨s, cs, hcs⟩ := List.exists_cons_of_ne_nil hc
    have hsucc : emptySlots kind w.windowEnd w.slotWidth (n + 1) =
        .empty kind w.windowEnd :: emptySlots kind (w.windowEnd + w.slotWidth) w.slotWidth n := by
      simp only [emptySlots, List.range_succ_eq_map, List.map_cons, List.map_map]
      congr 1
      · simp
      · apply List.map_congr_left
        intro j _
        simp only [Function.comp_apply, Nat.succ_eq_add_one, Int.natCast_add, Int.add_mul]
        congr 1
        omega
    rw [rotateBy, ih (by simpa using hn) (kind_rotate hk), contents_rotate hn hk, hcs, hsucc]
    simp [rotate]

/-- Rotating moves the bounds as skipping does; only the slots differ. -/
theorem rotateBy_eq_skip {w : Window} (hb : w.base < w.slots.size) (n : Nat) :
    w.rotateBy n = { w.skip n with slots := (w.rotateBy n).slots } := by
  induction n generalizing w with
  | zero => simp [rotateBy, skip, Nat.mod_eq_of_lt hb]
  | succ n ih =>
    have hb' : w.rotate.base < w.rotate.slots.size := by
      rw [size_rotate]
      exact Nat.mod_lt _ (Nat.zero_lt_of_lt hb)
    rw [rotateBy, ih hb']
    have hbase : ((w.base + 1) % w.slots.size + n % w.slots.size) % w.slots.size =
        (w.base + (n + 1) % w.slots.size) % w.slots.size := by
      rw [← Nat.add_mod, Nat.add_mod_mod]
      congr 1
      omega
    simp only [skip, size_rotate]
    simp only [rotate, hbase, Int.natCast_add, Int.cast_ofNat_Int, Int.add_mul, Int.one_mul,
      mk.injEq, true_and]
    omega

@[simp] theorem size_rotateBy (w : Window) (n : Nat) :
    (w.rotateBy n).slots.size = w.slots.size := by
  induction n generalizing w with
  | zero => rfl
  | succ n ih => rw [rotateBy, ih, size_rotate]

@[simp] theorem size_advance (w : Window) (n : Nat) :
    (w.advance n).slots.size = w.slots.size := by
  unfold advance
  split <;> simp [skip]

/-- A move changes nothing but the slots and the bounds. -/
theorem advance_eq_skip {w : Window} (hb : w.base < w.slots.size) (n : Nat) :
    w.advance n = { w.skip n with slots := (w.advance n).slots } := by
  unfold advance
  split
  · exact rotateBy_eq_skip hb n
  · next h =>
    have hb' : (w.skip (n - w.slots.size)).base < (w.skip (n - w.slots.size)).slots.size :=
      Nat.mod_lt _ (Nat.zero_lt_of_lt hb)
    rw [rotateBy_eq_skip hb']
    obtain ⟨m, rfl⟩ : ∃ m, n = m + w.slots.size := ⟨n - w.slots.size, by omega⟩
    simp only [skip, Nat.add_sub_cancel, Int.natCast_add, Int.add_mul, mk.injEq, true_and,
      Nat.mod_self, Nat.add_mod_right, Nat.add_zero, Nat.mod_mod]
    omega

theorem start_advance {w : Window} (hb : w.base < w.slots.size) (n : Nat) :
    (w.advance n).start = w.start + n * w.slotWidth := by
  rw [advance_eq_skip hb]
  simp only [start, skip]
  omega

theorem windowEnd_advance {w : Window} (hb : w.base < w.slots.size) (n : Nat) :
    (w.advance n).windowEnd = w.windowEnd + n * w.slotWidth := by
  rw [advance_eq_skip hb]
  rfl

theorem slotWidth_advance {w : Window} (hb : w.base < w.slots.size) (n : Nat) :
    (w.advance n).slotWidth = w.slotWidth := by
  rw [advance_eq_skip hb]
  rfl

theorem contents_advance {kind : Statistic} {w : Window} (hn : 0 < w.slots.size)
    (hk : ∀ s ∈ w.slots, s.samples.kind = kind) (n : Nat) :
    (w.advance n).contents = (w.contents ++ emptySlots kind w.windowEnd w.slotWidth n).drop n := by
  unfold advance
  split
  · exact contents_rotateBy hn hk n
  · next h =>
    -- Whatever the skipped slots hold, a full turn of the ring drops it.
    obtain ⟨m, rfl⟩ : ∃ m, n = m + w.slots.size := ⟨n - w.slots.size, by omega⟩
    have hk' : ∀ s ∈ (w.skip m).slots, s.samples.kind = kind := by simpa [skip] using hk
    rw [Nat.add_sub_cancel, contents_rotateBy (by simpa [skip] using hn) hk']
    apply List.ext_getElem
    · simp [emptySlots, skip]
    · intro i h₁ h₂
      simp only [skip, emptySlots, List.getElem_drop]
      rw [List.getElem_append_right (by simp), List.getElem_append_right (by simp; omega)]
      simp only [List.getElem_map, List.getElem_range, length_contents]
      rw [show m + w.slots.size + i - w.slots.size = m + i by omega, Nat.add_sub_cancel_left,
        Int.natCast_add, Int.add_mul, Int.add_assoc]

/-! ## What all windows have in common -/

/-- The shape of every window that computes `kind`, whatever its samples. -/
structure Regular (kind : Statistic) (w : Window) : Prop where
  width_pos : 0 < w.slotWidth
  base_lt : w.base < w.slots.size
  view_pos : 0 < w.viewSlots
  view_le : w.viewSlots ≤ w.slots.size
  length_eq : w.length = w.slots.size * w.slotWidth
  slotEnd_eq : w.slotEnd = w.viewEnd
  windowEnd_eq : w.windowEnd = w.viewEnd + (w.slots.size - w.viewSlots : Nat) * w.slotWidth
  kind_eq : ∀ s ∈ w.slots, s.samples.kind = kind

namespace Regular

variable {kind : Statistic} {w : Window}

theorem size_pos (h : Regular kind w) : 0 < w.slots.size := Nat.zero_lt_of_lt h.base_lt

theorem windowEnd_eq_start (h : Regular kind w) :
    w.windowEnd = w.start + w.slots.size * w.slotWidth := by
  rw [start, h.length_eq]
  omega

theorem addAt (h : Regular kind w) (i : Nat) (v : Float) (t : Int) :
    Regular kind (w.addAt i v t) where
  width_pos := h.width_pos
  base_lt := by simpa [Window.addAt] using h.base_lt
  view_pos := h.view_pos
  view_le := by simpa [Window.addAt] using h.view_le
  length_eq := by simpa [Window.addAt] using h.length_eq
  slotEnd_eq := h.slotEnd_eq
  windowEnd_eq := by simpa [Window.addAt] using h.windowEnd_eq
  kind_eq := by
    intro s hs
    obtain ⟨j, hj, rfl⟩ := Array.getElem_of_mem hs
    simp only [Window.addAt, Array.getElem_modify]
    split
    · simp [h.kind_eq]
    · exact h.kind_eq _ (Array.getElem_mem _)

theorem advance (h : Regular kind w) (n : Nat) : Regular kind (w.advance n) := by
  have hk : ∀ s ∈ (w.advance n).slots, s.samples.kind = kind := by
    intro s hs
    rw [← mem_contents, contents_advance h.size_pos h.kind_eq] at hs
    rcases List.mem_append.1 (List.mem_of_mem_drop hs) with hs | hs
    · exact h.kind_eq s (mem_contents.1 hs)
    · obtain ⟨j, -, rfl⟩ := List.mem_map.1 hs
      exact Accumulator.kind_fresh kind
  have hn := size_advance w n
  rw [advance_eq_skip h.base_lt] at hn ⊢
  refine ⟨h.width_pos, ?_, h.view_pos, hn ▸ h.view_le, hn ▸ h.length_eq, ?_, ?_, hk⟩
  · rw [hn]
    exact Nat.mod_lt _ h.size_pos
  · simp only [skip, h.slotEnd_eq]
  · rw [hn]
    simp only [skip, h.windowEnd_eq]
    omega

end Regular

/-! ## Fresh windows -/

theorem checked_eq_some {t u : Int} :
    Timestamp.checked t = some u ↔ Timestamp.InRange t ∧ u = t := by
  unfold Timestamp.checked
  split <;> simp_all [eq_comm]

theorem span?_eq_some {viewEnd slotWidth e l : Int} {futureSlots slots : Nat}
    (h : span? viewEnd slotWidth futureSlots slots = some (e, l)) :
    e = viewEnd + futureSlots * slotWidth ∧ l = slots * slotWidth ∧ Timestamp.InRange e ∧
      Timestamp.InRange (e - l) := by
  simp only [span?, Option.bind_eq_bind, Option.bind_eq_some_iff, checked_eq_some,
    Option.some.injEq, Prod.mk.injEq] at h
  obtain ⟨_, ⟨-, rfl⟩, _, ⟨-, rfl⟩, _, ⟨he, rfl⟩, _, ⟨-, rfl⟩, _, ⟨-, rfl⟩, _, ⟨hs, -⟩, rfl, rfl⟩ :=
    h
  exact ⟨rfl, rfl, he, hs⟩

/-- The shape gives a window that ends at `e` and is `l` long. All that may still be missing is
memory for its slots. -/
structure Passes (shape : WindowShape) (e l : Int) : Prop where
  width_pos : 0 < shape.slotWidth
  view_pos : 0 < shape.viewSlots
  count_lt : shape.viewSlots + shape.futureSlots < UInt64.size
  span_eq : span? (shape.resolution.adjust shape.viewEnd) shape.slotWidth shape.futureSlots
    (shape.viewSlots + shape.futureSlots) = some (e, l)

theorem Passes.create_eq {shape : WindowShape} {e l : Int} (h : Passes shape e l) :
    create shape =
      if mostOctets < (shape.viewSlots + shape.futureSlots) * Slot.octets then .error .memory
      else .ok (fresh shape e l) := by
  obtain ⟨hwidth, hview, hcount, hspan⟩ := h
  rw [create, if_neg (Int.not_le_of_gt hwidth), if_neg hview.ne', if_neg (Nat.not_le_of_gt hcount),
    hspan]

/-- Every other shape is refused. -/
theorem passes_or_refused (shape : WindowShape) :
    (∃ e l, Passes shape e l) ∨ ∃ fault, fault ≠ .memory ∧ create shape = .error fault := by
  by_cases hwidth : shape.slotWidth ≤ 0
  · exact .inr ⟨.width shape.slotWidth, nofun, if_pos hwidth⟩
  by_cases hview : shape.viewSlots = 0
  · exact .inr ⟨.noView, nofun, by rw [create, if_neg hwidth, if_pos hview]⟩
  by_cases hcount : UInt64.size ≤ shape.viewSlots + shape.futureSlots
  · exact .inr ⟨.tooManySlots, nofun, by rw [create, if_neg hwidth, if_neg hview, if_pos hcount]⟩
  cases hspan : span? (shape.resolution.adjust shape.viewEnd) shape.slotWidth shape.futureSlots
      (shape.viewSlots + shape.futureSlots) with
  | none =>
    refine .inr ⟨.range (shape.viewSlots + shape.futureSlots) shape.slotWidth
      (shape.resolution.adjust shape.viewEnd), nofun, ?_⟩
    rw [create, if_neg hwidth, if_neg hview, if_neg hcount, hspan]
  | some bounds =>
    exact .inl ⟨bounds.1, bounds.2, Int.lt_of_not_ge hwidth, Nat.pos_of_ne_zero hview,
      Nat.lt_of_not_ge hcount, hspan⟩

/-- A window that can be made is the one of a shape that passes and can be stored. -/
theorem accepted_of_create {shape : WindowShape} {w : Window} (h : create shape = .ok w) :
    (shape.viewSlots + shape.futureSlots) * Slot.octets ≤ mostOctets ∧
      ∃ e l, Passes shape e l ∧ w = fresh shape e l := by
  obtain ⟨e, l, hpasses⟩ | ⟨fault, -, hrefused⟩ := passes_or_refused shape
  · rw [hpasses.create_eq] at h
    split at h
    · cases h
    · next hmemory =>
      cases h
      exact ⟨Nat.le_of_not_lt hmemory, e, l, hpasses, rfl⟩
  · rw [hrefused] at h
    cases h

/-- What a window that can be made looks like. -/
theorem create_eq_ok {shape : WindowShape} {w : Window} (h : create shape = .ok w) :
    0 < shape.slotWidth ∧ 0 < shape.viewSlots ∧ Timestamp.InRange w.start ∧
      w = {
        resolution := shape.resolution
        slotWidth := shape.slotWidth
        viewSlots := shape.viewSlots
        length := (shape.viewSlots + shape.futureSlots : Nat) * shape.slotWidth
        slots := freshSlots shape.kind
          (shape.resolution.adjust shape.viewEnd - shape.viewSlots * shape.slotWidth)
          shape.slotWidth (shape.viewSlots + shape.futureSlots)
        base := 0
        viewEnd := shape.resolution.adjust shape.viewEnd
        slotEnd := shape.resolution.adjust shape.viewEnd
        windowEnd := shape.resolution.adjust shape.viewEnd +
          shape.futureSlots * shape.slotWidth } := by
  obtain ⟨-, e, l, hpasses, rfl⟩ := accepted_of_create h
  obtain ⟨rfl, rfl, -, hs⟩ := span?_eq_some hpasses.span_eq
  refine ⟨hpasses.width_pos, hpasses.view_pos, hs, ?_⟩
  unfold fresh
  congr 2
  rw [Int.natCast_add, Int.add_mul]
  omega

theorem regular_create {shape : WindowShape} {w : Window} (h : create shape = .ok w) :
    Regular shape.kind w := by
  obtain ⟨hw, hv, -, rfl⟩ := create_eq_ok h
  refine ⟨hw, ?_, hv, ?_, ?_, rfl, ?_, ?_⟩
  · simp [freshSlots]
    omega
  · simp [freshSlots]
  · simp [freshSlots]
  · simp [freshSlots]
  · intro s hs
    obtain ⟨i, hi, rfl⟩ := Array.getElem_of_mem hs
    simp [freshSlots]

theorem contents_create {shape : WindowShape} {w : Window} (h : create shape = .ok w) :
    w.contents = emptySlots shape.kind w.start w.slotWidth w.slots.size := by
  obtain ⟨-, -, -, rfl⟩ := create_eq_ok h
  apply List.ext_getElem
  · simp [emptySlots]
  · intro i h₁ h₂
    simp [contents, emptySlots, freshSlots, start, Slot.empty, Int.add_mul]

end Window

end MetricAlarm
