import MetricAlarm.Accumulator
import MetricAlarm.Window.Timestamp

/-!
# Sliding windows

A window is a ring of time slots of equal width. The older slots are the *view*, which is judged;
the newer ones lie in the future and take samples that arrive ahead of the view. Slots have a
logical number, zero for the oldest, and a place in the ring; `base` is the place of the oldest.
Main statement: `physical_lt`, every logical number has a place.
-/

namespace MetricAlarm

/-- A slot: the start of its time range and the samples that fell into it. -/
structure Slot where
  start : Int
  samples : Accumulator
  deriving DecidableEq

/-- The octets that a slot takes up in memory: its start, the kind of its accumulator, and room for
the largest accumulator. -/
def Slot.octets : Nat := 8 + 8 + 24

/-- The octets that one array can take up, where sizes have sixty-three bits. -/
def mostOctets : Nat := 9223372036854775807

/-- What a window is made of. -/
structure WindowShape where
  kind : Statistic
  resolution : Resolution
  slotWidth : Int
  viewSlots : Nat
  futureSlots : Nat
  /-- The end of the view, not included in it. -/
  viewEnd : Int

/-- Why no window has a shape. -/
inductive ShapeFault
  | width (slotWidth : Int)
  | noView
  | tooManySlots
  | range (slots : Nat) (slotWidth viewEnd : Int)
  /-- No array can hold the slots. This is found out too late to refuse the shape: the program stops
  with the message. -/
  | memory
  deriving DecidableEq, Repr

def ShapeFault.message : ShapeFault → String
  | .width w => "slot width must be positive, got " ++ toString w
  | .noView => "at least one view slot is required"
  | .tooManySlots => "slot count exceeds the addressable range"
  | .range slots w viewEnd =>
    toString slots ++ " slots of width " ++ toString w ++ " ending past " ++ toString viewEnd ++
      " overflow the timestamp range"
  | .memory => "capacity overflow"

inductive WindowError
  /-- No slot covers the timestamp, which is given as rounded. -/
  | outOfWindow (timestamp : Int)
  | invalid (fault : ShapeFault)
  deriving DecidableEq, Repr

def WindowError.message : WindowError → String
  | .outOfWindow t => toString t ++ " is outside of the window"
  | .invalid fault => "Invalid window: " ++ fault.message

structure Window where
  resolution : Resolution
  slotWidth : Int
  viewSlots : Nat
  /-- The time that all slots cover together. -/
  length : Int
  slots : Array Slot
  base : Nat
  viewEnd : Int
  /-- The end of the newest view slot, from which slides are measured. -/
  slotEnd : Int
  windowEnd : Int
  deriving DecidableEq

namespace Window

/-- The end and the length of a window, when all its bounds are timestamps. -/
def span? (viewEnd slotWidth : Int) (futureSlots slots : Nat) : Option (Int × Int) := do
  let futureCount ← Timestamp.checked futureSlots
  let futureLength ← Timestamp.checked (futureCount * slotWidth)
  let windowEnd ← Timestamp.checked (viewEnd + futureLength)
  let count ← Timestamp.checked slots
  let length ← Timestamp.checked (count * slotWidth)
  let _ ← Timestamp.checked (windowEnd - length)
  some (windowEnd, length)

/-- Slots without samples, one after the other from `start`. -/
def freshSlots (kind : Statistic) (start slotWidth : Int) (count : Nat) : Array Slot :=
  Array.ofFn fun i : Fin count => ⟨start + (i.val : Int) * slotWidth, kind.fresh⟩

/-- The window of a shape, given its end and its length. -/
def fresh (s : WindowShape) (windowEnd length : Int) : Window where
  resolution := s.resolution
  slotWidth := s.slotWidth
  viewSlots := s.viewSlots
  length := length
  slots := freshSlots s.kind (windowEnd - length) s.slotWidth (s.viewSlots + s.futureSlots)
  base := 0
  viewEnd := s.resolution.adjust s.viewEnd
  slotEnd := s.resolution.adjust s.viewEnd
  windowEnd := windowEnd

def create (s : WindowShape) : Except ShapeFault Window :=
  let count := s.viewSlots + s.futureSlots
  let viewEnd := s.resolution.adjust s.viewEnd
  if s.slotWidth ≤ 0 then .error (.width s.slotWidth)
  else if s.viewSlots = 0 then .error .noView
  else if UInt64.size ≤ count then .error .tooManySlots
  else
    match span? viewEnd s.slotWidth s.futureSlots count with
    | none => .error (.range count s.slotWidth viewEnd)
    | some (windowEnd, length) =>
      if mostOctets < count * Slot.octets then .error .memory
      else .ok (fresh s windowEnd length)

/-- The start of the oldest slot. -/
def start (w : Window) : Int := w.windowEnd - w.length

/-- The place of a logical slot. -/
def physical (w : Window) (logical : Nat) : Nat := (w.base + logical) % w.slots.size

/-- The logical number of a place. -/
def logical (w : Window) (place : Nat) : Nat := (place + w.slots.size - w.base) % w.slots.size

theorem physical_lt {w : Window} (h : 0 < w.slots.size) (i : Nat) : w.physical i < w.slots.size :=
  Nat.mod_lt _ h

/-- The place of the slot that covers a timestamp. -/
def placeOf? (w : Window) (timestamp : Int) : Option Nat :=
  let t := w.resolution.adjust timestamp
  if t < w.start ∨ w.windowEnd ≤ t then none
  else some (w.physical ((t - w.start) / w.slotWidth).toNat)

/-! ## Samples -/

/-- Add a sample to the slot at a place. -/
def addAt (w : Window) (place : Nat) (value : Float) (timestamp : Int) : Window :=
  { w with
    slots := w.slots.modify place fun s => { s with samples := s.samples.add value timestamp } }

/-- Add a sample to the slot that covers its timestamp, or, when forced, to the oldest slot whatever
the timestamp. Samples outside the window are refused. -/
def insert? (w : Window) (value : Float) (timestamp : Int) (force : Bool) : Option Window :=
  if force then some (w.addAt (w.physical 0) value timestamp)
  else (w.placeOf? timestamp).map fun place => w.addAt place value timestamp

/-! ## Values -/

/-- The value of the slot at a place. -/
def valueAt (w : Window) (place : Nat) : Float :=
  match w.slots[place]? with
  | some s => s.samples.value
  | none => noValue

/-- The values of the oldest slots, in order of age. -/
def oldest (w : Window) (count : Nat) : List Float :=
  (List.range count).map fun i => w.valueAt (w.physical i)

/-- The place of the slot that covers a timestamp, for reading. -/
def find (w : Window) (timestamp : Int) : Except WindowError Nat :=
  match w.placeOf? timestamp with
  | some place => .ok place
  | none => .error (.outOfWindow (w.resolution.adjust timestamp))

def get (w : Window) (timestamp : Int) : Except WindowError Float :=
  (w.find timestamp).map w.valueAt

/-- The values up to the slot that covers the timestamp. -/
def upTo (w : Window) (timestamp : Int) : Except WindowError (List Float) :=
  (w.find timestamp).map fun place => w.oldest (w.logical place + 1)

def viewValues (w : Window) : List Float := w.oldest w.viewSlots

def values (w : Window) : List Float := w.oldest w.slots.size

/-- The ends of the view slots. -/
def viewTimes (w : Window) : List Int :=
  (List.range w.viewSlots).map fun i : Nat => w.start + w.slotWidth + (i : Int) * w.slotWidth

end Window

end MetricAlarm
