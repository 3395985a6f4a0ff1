import Mathlib.Data.List.DropRight
import MetricAlarm.Proofs.Window.Reads
import MetricAlarm.Window.Text

/-!
# The text of a window tells its values

Every slot keeps its own start, and the text shows that one. In every state it is the start that
belongs to the slot's number, and the values are those that are read. The text can also be written in
one walk over the slots, where what stands in front of a slot depends on its number alone. Main
statements: `Regular.text_eq_walked` and `text_shows`.
-/

namespace MetricAlarm.Window

/-- The text of a slot from its start and its value. -/
def cell (start : Int) (value : Float) : String := toString start ++ "=" ++ Decimal.text value

/-- The texts of all slots, from what is read of the window. -/
def cells (w : Window) : List String :=
  w.values.mapIdx fun i value => cell (w.start + (i : Int) * w.slotWidth) value

/-- The bounds of a window in front of its slots. -/
def header (w : Window) : String :=
  "SlidingWindow resolution = " ++ w.resolution.name ++
    " slot_width = " ++ toString w.slotWidth ++
    " view_end = " ++ toString w.viewEnd ++
    " slot_end = " ++ toString w.slotEnd ++ " [("

/-! ## Writing slot by slot -/

/-- What stands in front of a slot: the end of the view, nothing for the first slot shown, or a
comma. -/
def separator (w : Window) (i : Nat) : String :=
  if i = w.viewSlots then "), " else if i = w.hiddenSlots then "" else ", "

/-- `count` slots from a logical number on, each behind its separator. -/
def walk (w : Window) (first count : Nat) : String :=
  String.join ((List.range' first count).map fun i => w.separator i ++ w.slotText i)

/-- The line written in one walk. A view that no slot follows is closed behind the last one. -/
def walked (w : Window) : String :=
  w.header ++ (if w.hiddenSlots = 0 then "" else "... ") ++
    w.walk w.hiddenSlots (w.slots.size - w.hiddenSlots) ++
    (if w.viewSlots = w.slots.size then ")" else "") ++ "]"

variable {kind : Statistic} {w : Window}

theorem slotTexts_eq (w : Window) (first count : Nat) :
    w.slotTexts first count = (List.range' first count).map w.slotText := by
  rw [slotTexts, List.range'_eq_map_range, List.map_map]
  rfl

theorem intercalate_comma (t : String) (ts : List String) :
    ", ".intercalate (t :: ts) = t ++ String.join (ts.map (", " ++ ·)) := by
  induction ts generalizing t with
  | nil => simp
  | cons u ts ih => rw [String.intercalate_cons_cons, ih]; simp [String.append_assoc]

theorem walk_succ (w : Window) (first count : Nat) :
    w.walk first (count + 1) =
      w.separator first ++ w.slotText first ++ w.walk (first + 1) count := by
  simp [walk, List.range'_succ]

theorem walk_add (w : Window) (first m n : Nat) :
    w.walk first (m + n) = w.walk first m ++ w.walk (first + m) n := by
  rw [walk, ← List.range'_append_1, List.map_append, String.join_append]
  rfl

/-- Away from the first slot shown and from the end of the view there are only commas. -/
theorem walk_commas {first count : Nat}
    (h : ∀ i ∈ List.range' first count, i ≠ w.viewSlots ∧ i ≠ w.hiddenSlots) :
    w.walk first count = String.join ((w.slotTexts first count).map (", " ++ ·)) := by
  rw [slotTexts_eq, List.map_map, walk]
  congr 1
  refine List.map_congr_left fun i hi => ?_
  obtain ⟨hview, hfirst⟩ := h i hi
  rw [separator, if_neg hview, if_neg hfirst]
  rfl

theorem walk_view (hview : 0 < w.viewSlots) :
    w.walk w.hiddenSlots (w.viewSlots - w.hiddenSlots) =
      ", ".intercalate (w.slotTexts w.hiddenSlots (w.viewSlots - w.hiddenSlots)) := by
  have hhidden : w.hiddenSlots < w.viewSlots := Nat.sub_lt hview (by decide)
  obtain ⟨n, hn⟩ : ∃ n, w.viewSlots - w.hiddenSlots = n + 1 :=
    Nat.exists_eq_add_one_of_ne_zero (by omega)
  have hrest : w.walk (w.hiddenSlots + 1) n =
      String.join ((w.slotTexts (w.hiddenSlots + 1) n).map (", " ++ ·)) := by
    apply walk_commas
    intro i hi
    rw [List.mem_range'_1] at hi
    omega
  have hfirst : w.separator w.hiddenSlots = "" := by
    rw [separator, if_neg (Nat.ne_of_lt hhidden), if_pos rfl]
  rw [hn, walk_succ, hrest, hfirst, slotTexts_eq, slotTexts_eq, List.range'_succ, List.map_cons,
    intercalate_comma, String.empty_append]

theorem walk_future (hview : 0 < w.viewSlots) (hle : w.viewSlots ≤ w.slots.size) :
    w.walk w.viewSlots (w.slots.size - w.viewSlots) ++
        (if w.viewSlots = w.slots.size then ")" else "") =
      ")" ++ String.join
        ((w.slotTexts w.viewSlots (w.slots.size - w.viewSlots)).map (", " ++ ·)) := by
  by_cases heq : w.viewSlots = w.slots.size
  · rw [if_pos heq, heq, Nat.sub_self]
    simp [walk, slotTexts]
  · obtain ⟨n, hn⟩ : ∃ n, w.slots.size - w.viewSlots = n + 1 :=
      Nat.exists_eq_add_one_of_ne_zero (by omega)
    have hhidden : w.hiddenSlots < w.viewSlots := Nat.sub_lt hview (by decide)
    have hrest : w.walk (w.viewSlots + 1) n =
        String.join ((w.slotTexts (w.viewSlots + 1) n).map (", " ++ ·)) := by
      apply walk_commas
      intro i hi
      rw [List.mem_range'_1] at hi
      omega
    have hclose : w.separator w.viewSlots = ")" ++ ", " := by
      rw [separator, if_pos rfl]
      rfl
    rw [if_neg heq, String.append_empty, hn, walk_succ, hrest, hclose, slotTexts_eq, slotTexts_eq,
      List.range'_succ, List.map_cons, List.map_cons, String.join_cons]
    simp only [String.append_assoc]

theorem header_eq (w : Window) :
    w.header = "SlidingWindow resolution = " ++ w.resolution.name ++
      " slot_width = " ++ toString w.slotWidth ++ " view_end = " ++ toString w.viewEnd ++
      " slot_end = " ++ toString w.slotEnd ++ " [(" := rfl

theorem line_eq (w : Window) (view future : List String) :
    w.line view future = w.header ++ (if w.hiddenSlots = 0 then "" else "... ") ++
      ", ".intercalate view ++ (")" ++ String.join (future.map (", " ++ ·))) ++ "]" := by
  rw [← @String.append_assoc _ ")" _]
  rfl

/-- The text is the line written in one walk. -/
theorem Regular.text_eq_walked (h : Regular kind w) : w.text = w.walked := by
  have hview := h.view_pos
  have hle := h.view_le
  have hhidden : w.hiddenSlots < w.viewSlots := Nat.sub_lt hview (by decide)
  have hsplit : w.slots.size - w.hiddenSlots =
      (w.viewSlots - w.hiddenSlots) + (w.slots.size - w.viewSlots) := by omega
  have hbehind : w.hiddenSlots + (w.viewSlots - w.hiddenSlots) = w.viewSlots := by omega
  rw [text, line_eq, ← walk_future hview hle, ← walk_view hview, walked, hsplit, walk_add, hbehind]
  simp only [← String.append_assoc]

/-! ## Slots and values -/

@[simp] theorem length_cells (w : Window) : w.cells.length = w.slots.size := by
  simp [cells]

/-- A slot shows the start that belongs to its number and the value that is read. -/
theorem Consistent.slotText_eq {shape : WindowShape} (h : Consistent shape w) {i : Nat}
    (hi : i < w.cells.length) : w.slotText i = w.cells[i] := by
  have hsize : i < w.slots.size := by simpa using hi
  have hstamp := h.stamp_eq i hsize
  obtain ⟨s, hs, hstart⟩ := Option.map_eq_some_iff.1 hstamp
  have hvalue : w.values[i]? = some s.samples.value := by
    rw [getElem?_values hsize, valueAt, hs]
  obtain ⟨_, hvalue⟩ := List.getElem?_eq_some_iff.1 hvalue
  have htext : w.slotText i = toString s.start ++ "=" ++ Decimal.text s.samples.value := by
    rw [slotText, hs]
  rw [htext, hstart, ← h.slotWidth_eq, ← hvalue]
  simp [cells, cell]

theorem Consistent.slotTexts_eq {shape : WindowShape} (h : Consistent shape w) {first count : Nat}
    (hle : first + count ≤ w.slots.size) :
    w.slotTexts first count = (w.cells.drop first).take count := by
  apply List.ext_getElem
  · simp [slotTexts]
    omega
  · intro i hi hi'
    simp only [slotTexts, List.getElem_map, List.getElem_range, List.getElem_take,
      List.getElem_drop]
    exact h.slotText_eq _

/-- In every state the text of a window is its bounds, then dots exactly when there are more than
three view slots, then the last three of these, or all if there are fewer, and the slots behind the
view. Each slot is shown with the start that belongs to its number and with the value that is read
there. The line is the same when it is written in one walk over the slots. -/
theorem text_shows {shape : WindowShape} {w : Window} (h : create shape = .ok w)
    (calls : List Call) :
    let last := w.run calls
    let cells := last.values.mapIdx fun i value =>
      toString (last.start + (i : Int) * shape.slotWidth) ++ "=" ++ Decimal.text value
    last.text = "SlidingWindow resolution = " ++ shape.resolution.name ++
        " slot_width = " ++ toString shape.slotWidth ++
        " view_end = " ++ toString last.viewEnd ++
        " slot_end = " ++ toString last.slotEnd ++ " [(" ++
        (if 3 < shape.viewSlots then "... " else "") ++
        ", ".intercalate ((cells.take shape.viewSlots).rtake 3) ++ ")" ++
        String.join ((cells.drop shape.viewSlots).map (", " ++ ·)) ++ "]" ∧
      cells.length = shape.viewSlots + shape.futureSlots ∧
      last.text = last.walked := by
  intro last cells
  have hr : Regular shape.kind last := (regular_create h).run calls
  have hc : Consistent shape last := consistent_run h calls
  obtain ⟨-, hviewSlots, -, hresolution⟩ := frame_create h
  obtain ⟨-, hviewSlots', -, hresolution'⟩ := (regular_create h).frame_run calls
  have hview : last.viewSlots = shape.viewSlots := hviewSlots'.trans hviewSlots
  have hres : last.resolution = shape.resolution := hresolution'.trans hresolution
  have hcells : cells = last.cells := by
    simp only [cells, Window.cells, cell, hc.slotWidth_eq]
  have hle := hr.view_le
  have hlength : (last.cells.take last.viewSlots).length = last.viewSlots := by
    rw [List.length_take, length_cells, Nat.min_eq_left hle]
  have hhidden : last.hiddenSlots ≤ last.viewSlots := Nat.sub_le _ _
  have hshown : last.slotTexts last.hiddenSlots (last.viewSlots - last.hiddenSlots) =
      (last.cells.take last.viewSlots).rtake 3 := by
    rw [hc.slotTexts_eq (by omega), List.rtake, hlength, List.drop_take]
    rfl
  have hfuture : last.slotTexts last.viewSlots (last.slots.size - last.viewSlots) =
      last.cells.drop last.viewSlots := by
    rw [hc.slotTexts_eq (by omega), List.take_of_length_le]
    simp
  have hdots : (if last.hiddenSlots = 0 then "" else "... ") =
      if 3 < last.viewSlots then "... " else "" := by
    unfold hiddenSlots shownViewSlots
    split <;> split <;> first | rfl | omega
  refine ⟨?_, ?_, hr.text_eq_walked⟩
  · rw [hcells, text, line_eq, hshown, hfuture, hdots, header_eq, hview, hres, hc.slotWidth_eq]
    simp only [← String.append_assoc]
  · rw [hcells, length_cells, hc.size_eq]

/-- A turned ring without slots behind the view, of which the oldest is not shown; and a view of one
slot with two behind it. -/
theorem text_shows_turned :
    (∃ w, create ⟨.sum, .seconds, 5000, 4, 0, 20999⟩ = .ok w ∧
      (w.run [.add 2 17999 false, .slide 31000 0, .add 7 26000 false]).text =
        "SlidingWindow resolution = seconds slot_width = 5000 view_end = 35000 slot_end = 35000 " ++
          "[(... 20000=NaN, 25000=7, 30000=NaN)]") ∧
    ∃ w, create ⟨.min, .absolute, 5, 1, 2, -5⟩ = .ok w ∧
      (w.run [.slide 4 0, .add (-0.5) 11 false]).text =
        "SlidingWindow resolution = absolute slot_width = 5 view_end = 5 slot_end = 5 " ++
          "[(0=NaN), 5=NaN, 10=-0.5]" := by
  have h : create ⟨.sum, .seconds, 5000, 4, 0, 20999⟩ = .ok _ := rfl
  have h' : create ⟨.min, .absolute, 5, 1, 2, -5⟩ = .ok _ := rfl
  refine ⟨⟨_, h, ?_⟩, _, h', ?_⟩
  · rw [(text_shows h _).1]
    decide +kernel
  · rw [(text_shows h' _).1]
    decide +kernel

end MetricAlarm.Window
