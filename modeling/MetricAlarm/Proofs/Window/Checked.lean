import MetricAlarm.Proofs.Window.History
import MetricAlarm.Window.Text

/-!
# Windows in sixty-four bits

The operations of a window once more, this time step by step: every sum, product, quotient and
conversion has a result only if a word of sixty-four bits holds it, with sign for timestamps and
without for numbers of slots, and every slot is looked up only if it is there. What is clamped to the
range of timestamps stays clamped. Main statements: `Count.add?_eq` and `Timestamp.div?_eq`, which
say when a step has its result.
-/

namespace MetricAlarm

/-! ## Words -/

namespace Timestamp

def add? (a b : Int) : Option Int := checked (a + b)

def sub? (a b : Int) : Option Int := checked (a - b)

def mul? (a b : Int) : Option Int := checked (a * b)

/-- The quotient, rounded towards zero. -/
def div? (a b : Int) : Option Int := if b = 0 then none else checked (a.tdiv b)

/-- The remainder; there is none without the quotient. -/
def rem? (a b : Int) : Option Int := (div? a b).map fun _ => a.tmod b

/-- The remainder that is never negative. -/
def remEuclid? (a b : Int) : Option Int := (div? a b).map fun _ => a % b

def ofCount? (n : Nat) : Option Int := checked n

theorem checked_of_inRange {t : Int} (h : InRange t) : checked t = some t := if_pos h

theorem add?_eq {a b : Int} (h : InRange (a + b)) : add? a b = some (a + b) :=
  checked_of_inRange h

theorem sub?_eq {a b : Int} (h : InRange (a - b)) : sub? a b = some (a - b) :=
  checked_of_inRange h

theorem mul?_eq {a b : Int} (h : InRange (a * b)) : mul? a b = some (a * b) :=
  checked_of_inRange h

theorem ofCount?_eq {n : Nat} (h : (n : Int) ≤ greatest) : ofCount? n = some (n : Int) :=
  checked_of_inRange ⟨by unfold least; omega, h⟩

theorem div?_eq {a b : Int} (hb : 0 < b) (ha : InRange a) : div? a b = some (a.tdiv b) := by
  rw [div?, if_neg (by omega)]
  obtain ⟨hl, hu⟩ := ha
  refine checked_of_inRange ?_
  -- The quotient lies between zero and the dividend.
  rcases Int.le_total 0 a with h | h
  · have hnonneg := Int.tdiv_nonneg h (Int.le_of_lt hb)
    have hle := Int.tdiv_le_self (b := b) h
    exact ⟨by unfold least; omega, by omega⟩
  · obtain ⟨c, rfl⟩ : ∃ c, a = -c := ⟨-a, by omega⟩
    have hc : 0 ≤ c := by omega
    have hnonneg := Int.tdiv_nonneg hc (Int.le_of_lt hb)
    have hle := Int.tdiv_le_self (b := b) hc
    rw [Int.neg_tdiv]
    exact ⟨by omega, by unfold greatest; omega⟩

theorem rem?_eq {a b : Int} (hb : 0 < b) (ha : InRange a) : rem? a b = some (a.tmod b) := by
  rw [rem?, div?_eq hb ha]
  rfl

theorem remEuclid?_eq {a b : Int} (hb : 0 < b) (ha : InRange a) :
    remEuclid? a b = some (a % b) := by
  rw [remEuclid?, div?_eq hb ha]
  rfl

end Timestamp

namespace Count

def checked (n : Nat) : Option Nat := if n < UInt64.size then some n else none

def add? (a b : Nat) : Option Nat := checked (a + b)

def sub? (a b : Nat) : Option Nat := if b ≤ a then some (a - b) else none

def rem? (a b : Nat) : Option Nat := if b = 0 then none else some (a % b)

def ofTimestamp? (t : Int) : Option Nat := if 0 ≤ t then checked t.toNat else none

/-- Two numbers that are timestamps have a sum. -/
theorem add?_eq {a b : Nat} (ha : (a : Int) ≤ Timestamp.greatest)
    (hb : (b : Int) ≤ Timestamp.greatest) : add? a b = some (a + b) := by
  refine if_pos ?_
  unfold Timestamp.greatest at ha hb
  unfold UInt64.size
  omega

theorem sub?_eq {a b : Nat} (h : b ≤ a) : sub? a b = some (a - b) := if_pos h

theorem rem?_eq {a b : Nat} (hb : 0 < b) : rem? a b = some (a % b) := if_neg (by omega)

theorem ofTimestamp?_eq {t : Int} (hl : 0 ≤ t) (hu : t ≤ Timestamp.greatest) :
    ofTimestamp? t = some t.toNat := by
  refine (if_pos hl).trans (if_pos ?_)
  unfold Timestamp.greatest at hu
  unfold UInt64.size
  omega

end Count

def Resolution.adjust? (r : Resolution) (t : Int) : Option Int :=
  match r with
  | .absolute => some t
  | r => (Timestamp.remEuclid? t r.unit).map fun part => Timestamp.clamp (t - part)

theorem Resolution.adjust?_eq (r : Resolution) {t : Int} (ht : Timestamp.InRange t) :
    r.adjust? t = some (r.adjust t) := by
  cases r with
  | absolute => rfl
  | seconds => exact congrArg (Option.map _) (Timestamp.remEuclid?_eq (b := 1000) (by decide) ht)
  | minutes => exact congrArg (Option.map _) (Timestamp.remEuclid?_eq (b := 60000) (by decide) ht)

/-! ## Operations -/

namespace Window.Checked

def start (w : Window) : Option Int := Timestamp.sub? w.windowEnd w.length

/-- The start of the slot with a number, given the start of the first one. -/
def slotStart (first slotWidth : Int) (i : Nat) : Option Int := do
  let number ← Timestamp.ofCount? i
  let offset ← Timestamp.mul? number slotWidth
  Timestamp.add? first offset

def create (s : WindowShape) : Option (Except ShapeFault Window) :=
  if s.slotWidth ≤ 0 then some (.error (.width s.slotWidth))
  else if s.viewSlots = 0 then some (.error .noView)
  else
    match Count.add? s.viewSlots s.futureSlots with
    | none => some (.error .tooManySlots)
    | some count => do
      let viewEnd ← s.resolution.adjust? s.viewEnd
      match span? viewEnd s.slotWidth s.futureSlots count with
      | none => some (.error (.range count s.slotWidth viewEnd))
      | some (windowEnd, length) => do
        let start ← Timestamp.sub? windowEnd length
        if mostOctets < count * Slot.octets then some (.error .memory)
        else do
          let starts ← (List.range count).mapM (slotStart start s.slotWidth)
          some (.ok {
            resolution := s.resolution
            slotWidth := s.slotWidth
            viewSlots := s.viewSlots
            length := length
            slots := (starts.map (Slot.empty s.kind)).toArray
            base := 0
            viewEnd := viewEnd
            slotEnd := viewEnd
            windowEnd := windowEnd })

/-- There is no place for a number that no slot has. -/
def physical (w : Window) (logical : Nat) : Option Nat :=
  if logical < w.slots.size then do
    let sum ← Count.add? w.base logical
    Count.rem? sum w.slots.size
  else none

def logical (w : Window) (place : Nat) : Option Nat :=
  if place < w.slots.size then do
    let sum ← Count.add? place w.slots.size
    let difference ← Count.sub? sum w.base
    Count.rem? difference w.slots.size
  else none

def placeOf (w : Window) (timestamp : Int) : Option (Option Nat) := do
  let t ← w.resolution.adjust? timestamp
  let start ← start w
  if t < start ∨ w.windowEnd ≤ t then some none
  else
    let offset ← Timestamp.sub? t start
    let number ← Timestamp.div? offset w.slotWidth
    let i ← Count.ofTimestamp? number
    let place ← physical w i
    some (some place)

/-! ### Samples -/

def addAt (w : Window) (place : Nat) (value : Float) (timestamp : Int) : Option Window :=
  if place < w.slots.size then some (w.addAt place value timestamp) else none

def insert (w : Window) (value : Float) (timestamp : Int) (force : Bool) :
    Option (Option Window) :=
  if force then do
    let place ← physical w 0
    let w ← addAt w place value timestamp
    some (some w)
  else do
    match ← placeOf w timestamp with
    | none => some none
    | some place =>
      let w ← addAt w place value timestamp
      some (some w)

/-! ### Slides -/

def slotsToAdvance (w : Window) (timestamp minDelay : Int) : Option Int := do
  let distance := Timestamp.clamp (timestamp - w.slotEnd)
  let whole ← Timestamp.div? distance w.slotWidth
  let part ← Timestamp.rem? distance w.slotWidth
  let wanted ← if part > minDelay then Timestamp.add? whole 1 else some whole
  let room ← Timestamp.sub? Timestamp.greatest w.windowEnd
  let fitting ← Timestamp.div? room w.slotWidth
  some (min wanted fitting)

/-- Skip slots, without moving the end of the view. -/
def jump (w : Window) (skipped capacity : Int) : Option Window := do
  let part ← Timestamp.rem? skipped capacity
  let places ← Count.ofTimestamp? part
  let sum ← Count.add? w.base places
  let base ← Count.rem? sum w.slots.size
  let distance ← Timestamp.mul? skipped w.slotWidth
  let slotEnd ← Timestamp.add? w.slotEnd distance
  let windowEnd ← Timestamp.add? w.windowEnd distance
  some { w with base := base, slotEnd := slotEnd, windowEnd := windowEnd }

/-- Turn the ring by one slot, without moving the end of the view. -/
def turn (w : Window) : Option Window := do
  let next ← Count.add? w.base 1
  let base ← Count.rem? next w.slots.size
  let last ← Count.sub? w.slots.size 1
  let newest ← physical { w with base := base } last
  if newest < w.slots.size then
    let slotEnd ← Timestamp.add? w.slotEnd w.slotWidth
    let windowEnd ← Timestamp.add? w.windowEnd w.slotWidth
    some { w with
      base := base
      slots := w.slots.modify newest fun s => ⟨w.windowEnd, s.samples.reset⟩
      slotEnd := slotEnd
      windowEnd := windowEnd }
  else none

def turns (w : Window) : Nat → Option Window
  | 0 => some w
  | n + 1 => do
    let w ← turn w
    turns w n

/-- Move by `n` slots, without moving the end of the view: skip all but the last full turn. -/
def advance (w : Window) (n : Int) : Option Window := do
  let capacity ← Timestamp.ofCount? w.slots.size
  let excess ← Timestamp.sub? n capacity
  let skipped := max excess 0
  let jumped ← if skipped > 0 then jump w skipped capacity else some w
  turns jumped (n - skipped).toNat

/-- The end of the view moves last, by the whole distance. -/
def slideTo (w : Window) (timestamp minDelay : Int) : Option Window :=
  if w.isDue timestamp minDelay then do
    let n ← slotsToAdvance w timestamp minDelay
    if n ≤ 0 then some w
    else
      let turned ← advance w n
      let distance ← Timestamp.mul? n w.slotWidth
      let viewEnd ← Timestamp.add? turned.viewEnd distance
      some { turned with viewEnd := viewEnd }
  else some w

/-! ### Values -/

def valueAt (w : Window) (place : Nat) : Option Float := w.slots[place]?.map (·.samples.value)

def oldest (w : Window) (count : Nat) : Option (List Float) :=
  (List.range count).mapM fun i => do
    let place ← physical w i
    valueAt w place

def find (w : Window) (timestamp : Int) : Option (Except WindowError Nat) := do
  match ← placeOf w timestamp with
  | some place => some (.ok place)
  | none =>
    let t ← w.resolution.adjust? timestamp
    some (.error (.outOfWindow t))

def get (w : Window) (timestamp : Int) : Option (Except WindowError Float) := do
  match ← find w timestamp with
  | .error fault => some (.error fault)
  | .ok place =>
    let value ← valueAt w place
    some (.ok value)

def upTo (w : Window) (timestamp : Int) : Option (Except WindowError (List Float)) := do
  match ← find w timestamp with
  | .error fault => some (.error fault)
  | .ok place =>
    let i ← logical w place
    let count ← Count.add? i 1
    let values ← oldest w count
    some (.ok values)

def viewTimes (w : Window) : Option (List Int) := do
  let start ← start w
  let first ← Timestamp.add? start w.slotWidth
  (List.range w.viewSlots).mapM (slotStart first w.slotWidth)

def slotTexts (w : Window) (first count : Nat) : Option (List String) :=
  (List.range count).mapM fun i => do
    let place ← physical w (first + i)
    let s ← w.slots[place]?
    some (toString s.start ++ "=" ++ Decimal.text s.samples.value)

def text (w : Window) : Option String := do
  let view ← slotTexts w w.hiddenSlots (w.viewSlots - w.hiddenSlots)
  let future ← slotTexts w w.viewSlots (w.slots.size - w.viewSlots)
  some (w.line view future)

/-! ### Runs -/

def after (w : Window) : Call → Option Window
  | .add v t force => do
    let taken ← insert w v t force
    some (taken.getD w)
  | .slide t d => slideTo w t d

def run (w : Window) (calls : List Call) : Option Window := calls.foldlM after w

end Window.Checked

end MetricAlarm
