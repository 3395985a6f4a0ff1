import MetricAlarm.Decimal.Positional
import MetricAlarm.Window.Basic

/-!
# Windows in words

One line with the bounds of the window and its slots from the oldest to the newest, the view in
parentheses. Of a long view only the last slots are shown.
-/

namespace MetricAlarm.Window

/-- View slots that are shown at most. -/
def shownViewSlots : Nat := 3

/-- Start and value of a logical slot. -/
def slotText (w : Window) (logical : Nat) : String :=
  match w.slots[w.physical logical]? with
  | some s => toString s.start ++ "=" ++ Decimal.text s.samples.value
  | none => ""

/-- The texts of `count` slots from a logical number on. -/
def slotTexts (w : Window) (first count : Nat) : List String :=
  (List.range count).map fun i => w.slotText (first + i)

/-- View slots that are not shown. -/
def hiddenSlots (w : Window) : Nat := w.viewSlots - shownViewSlots

/-- The line, given the texts of the view slots and of those behind the view. -/
def line (w : Window) (view future : List String) : String :=
  "SlidingWindow resolution = " ++ w.resolution.name ++
    " slot_width = " ++ toString w.slotWidth ++
    " view_end = " ++ toString w.viewEnd ++
    " slot_end = " ++ toString w.slotEnd ++ " [(" ++
    (if w.hiddenSlots = 0 then "" else "... ") ++
    ", ".intercalate view ++ ")" ++ String.join (future.map (", " ++ ·)) ++ "]"

def text (w : Window) : String :=
  w.line (w.slotTexts w.hiddenSlots (w.viewSlots - w.hiddenSlots))
    (w.slotTexts w.viewSlots (w.slots.size - w.viewSlots))

end MetricAlarm.Window
