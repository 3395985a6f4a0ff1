import MetricAlarm.Proofs.Window.Consistency

/-!
# Reads agree

A timestamp leads to a place in the ring, the place back to a logical number, and that number to the
places of all slots up to it. However the ring is turned, these ways meet: every read is a part of the
values of the whole window, cut at the slot that the timestamp falls into. Main statements:
`Regular.exists_readsUpTo` and `reads_agree`.
-/

namespace MetricAlarm.Window

/-- A timestamp falls into slot number `k`: it is read there, after the values of the slots in
front. -/
structure ReadsUpTo (w : Window) (t : Int) (k : Nat) : Prop where
  number_eq : (k : Int) = (w.resolution.adjust t - w.start) / w.slotWidth
  number_lt : k < w.values.length
  placeOf?_eq : w.placeOf? t = some (w.physical k)
  upTo_eq : w.upTo t = .ok (w.values.take (k + 1))
  get_eq : ∃ v, (w.values.take (k + 1)).getLast? = some v ∧ w.get t = .ok v

variable {kind : Statistic} {w : Window}

/-! ## Values -/

@[simp] theorem length_oldest (w : Window) (n : Nat) : (w.oldest n).length = n := by
  simp [oldest]

@[simp] theorem length_values (w : Window) : w.values.length = w.slots.size :=
  w.length_oldest _

theorem getElem?_values {i : Nat} (hi : i < w.slots.size) :
    w.values[i]? = some (w.valueAt (w.physical i)) := by
  simp [values, oldest, hi]

/-- The oldest values come first among all values. -/
theorem oldest_eq_take {n : Nat} (hn : n ≤ w.slots.size) : w.oldest n = w.values.take n := by
  rw [values, oldest, oldest, ← List.map_take, List.take_range, Nat.min_eq_left hn]

theorem getLast?_take_values {k : Nat} (hk : k < w.slots.size) :
    (w.values.take (k + 1)).getLast? = some (w.valueAt (w.physical k)) := by
  have hlength : (w.values.take (k + 1)).length = k + 1 := by
    rw [List.length_take, length_values]
    omega
  rw [List.getLast?_eq_getElem?, hlength, Nat.add_sub_cancel,
    List.getElem?_take_of_lt (Nat.lt_succ_self k), getElem?_values hk]

/-! ## Timestamps -/

/-- The number of a slot is the whole number of widths in front of it. -/
theorem Regular.number_eq (h : Regular kind w) {t : Int} {k : Nat}
    (hm : w.Meets (w.start + k * w.slotWidth) t) :
    (k : Int) = (w.resolution.adjust t - w.start) / w.slotWidth := by
  have hw := h.width_pos
  obtain ⟨hl, hu⟩ := hm
  apply Int.le_antisymm
  · rw [Int.le_ediv_iff_mul_le hw]
    omega
  · have hnext : (w.resolution.adjust t - w.start) / w.slotWidth < k + 1 := by
      rw [Int.ediv_lt_iff_lt_mul hw, Int.add_mul, Int.one_mul]
      omega
    omega

theorem Regular.exists_readsUpTo (h : Regular kind w) {t : Int} (hc : w.Covers t) :
    ∃ k, w.ReadsUpTo t k := by
  obtain ⟨k, hk, hm, hplace⟩ := h.exists_slot hc
  have hfind : w.find t = .ok (w.physical k) := by
    rw [find, hplace]
  refine ⟨k, h.number_eq hm, ?_, hplace, ?_, w.valueAt (w.physical k), ?_, ?_⟩
  · rwa [length_values]
  · -- The number is recovered from the place by a subtraction modulo the size of the ring.
    have hcount : w.logical (w.physical k) + 1 = k + 1 := by
      rw [logical_physical h.base_lt hk]
    rw [Window.upTo, hfind, Except.map, hcount, oldest_eq_take hk]
  · exact getLast?_take_values hk
  · rw [Window.get, hfind]
    rfl

/-! ## The ends of the view slots -/

theorem viewTimes_isChain (w : Window) :
    w.viewTimes.IsChain fun a b => b = a + w.slotWidth := by
  rw [List.isChain_iff_getElem]
  intro i hi
  simp only [viewTimes, List.getElem_map, List.getElem_range, Int.natCast_add_one, Int.add_mul,
    Int.one_mul, Int.add_assoc]

theorem Regular.viewTimes_ends (h : Regular kind w) :
    w.viewTimes.head? = some (w.start + w.slotWidth) ∧ w.viewTimes.getLast? = some w.viewEnd := by
  obtain ⟨n, hn⟩ := Nat.exists_eq_add_one_of_ne_zero (Nat.ne_of_gt h.view_pos)
  constructor
  · simp [viewTimes, hn, List.range_succ_eq_map]
  · have hend := h.viewEnd_eq_start
    rw [hn, Int.natCast_add_one, Int.add_mul, Int.one_mul] at hend
    have hlast : w.start + w.slotWidth + (n : Int) * w.slotWidth = w.viewEnd := by omega
    simp [viewTimes, hn, List.range_succ, hlast]

/-- In every state of a window a timestamp is read, and has a place, exactly when the window covers
it. It is then in the slot as many widths behind the start, the values up to it are the first of the
values of the window, and its own value is the last of these. The values of the view are the first as
well, and there is one end for each of them, a width apart, from that of the oldest slot to that of
the view. -/
theorem reads_agree {shape : WindowShape} {w : Window} (h : create shape = .ok w)
    (calls : List Call) :
    let last := w.run calls
    (∀ t : Int, (last.Covers t → ∃ k, last.ReadsUpTo t k) ∧ (¬ last.Covers t → last.Refuses t)) ∧
    last.values.length = shape.viewSlots + shape.futureSlots ∧
    last.viewValues = last.values.take shape.viewSlots ∧
    last.viewTimes.length = shape.viewSlots ∧
    last.viewTimes.head? = some (last.start + shape.slotWidth) ∧
    last.viewTimes.IsChain (fun a b => b = a + shape.slotWidth) ∧
    last.viewTimes.getLast? = some last.viewEnd := by
  intro last
  have hr : Regular shape.kind last := (regular_create h).run calls
  have hc : Consistent shape last := consistent_run h calls
  have hview : last.viewSlots = shape.viewSlots :=
    ((regular_create h).frame_run calls).2.1.trans (frame_create h).2.1
  obtain ⟨hfirst, hlast⟩ := hr.viewTimes_ends
  refine ⟨fun t => ⟨hr.exists_readsUpTo, refuses_of_not_covers⟩, ?_, ?_, ?_, ?_, ?_, hlast⟩
  · rw [length_values, hc.size_eq]
  · rw [viewValues, oldest_eq_take hr.view_le, hview]
  · simp [viewTimes, hview]
  · rw [hfirst, hc.slotWidth_eq]
  · rw [← hc.slotWidth_eq]
    exact last.viewTimes_isChain

/-- A ring of five slots that was turned by two: the slot of the timestamp 41 stands at the front of
the ring, those in front of it at the back. -/
theorem reads_agree_wrapped :
    ∃ w, create ⟨.sum, .absolute, 5, 3, 2, 20⟩ = .ok w ∧
      let last := w.run [.slide 30 0, .add 2 27 false, .add 7 35 false]
      last.base = 2 ∧ last.placeOf? 31 = some 0 ∧
      (∃ k, last.ReadsUpTo 31 k) ∧ last.Refuses 40 ∧
      last.viewTimes.IsChain (fun a b => b = a + 5) ∧ last.viewTimes.getLast? = some 30 := by
  have h : create ⟨.sum, .absolute, 5, 3, 2, 20⟩ = .ok _ := rfl
  have hall := reads_agree h [.slide 30 0, .add 2 27 false, .add 7 35 false]
  obtain ⟨hreads, -, -, -, -, hchain, hlast⟩ := hall
  refine ⟨_, h, by decide +kernel, by decide +kernel, ?_, ?_, hchain, ?_⟩
  · exact (hreads 31).1 (by decide +kernel)
  · exact (hreads 40).2 (by decide +kernel)
  · rw [hlast]
    decide +kernel

end MetricAlarm.Window
