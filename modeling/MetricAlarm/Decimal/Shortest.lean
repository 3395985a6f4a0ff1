/-!
# The shortest decimal of a double

A positive finite double stands for the interval of reals that round to it. On the grid of the
multiples of `10 ^ p` the interval contains a point exactly when it contains one of the two
neighbours of the value, so `onGrid` looks at these; `shortest` goes from a coarse grid to finer
ones and stops at the first that has a point in the interval. Two points on that grid are decided
by distance, and of two at equal distance the upper one is taken.
-/

namespace MetricAlarm.Decimal

/-- The value `significand * 2 ^ exponent` of a positive double. `narrow` holds when the next
double below is half as far away as the next above. -/
structure Magnitude where
  significand : Nat
  exponent : Int
  narrow : Bool
  deriving DecidableEq, Repr

/-- The leading bit of a significand, which the bits of a double leave out: it stands above
fifty-two others. -/
def hiddenBit : Nat := 4503599627370496

/-- The magnitude in the bits of a finite double: eleven bits of exponent above fifty-two of
fraction. -/
def Magnitude.ofBits (bits : Nat) : Magnitude :=
  let fraction := bits % hiddenBit
  let biased := bits / hiddenBit % 2048
  if biased = 0 then ⟨fraction, -1074, false⟩
  else ⟨hiddenBit + fraction, (biased : Int) - 1075, fraction == 0 && 1 < biased⟩

/-- The value and the ends of its interval, in units in which the step of the grid `10 ^ p` is the
number `step`; all four are whole. -/
structure Scaled where
  below : Nat
  value : Nat
  above : Nat
  step : Nat

/-- A quarter of the last place is `2 ^ (exponent - 2)`: the interval reaches two quarters up, and
two or, when `narrow`, one quarter down. -/
def Magnitude.scaled (m : Magnitude) (p : Int) : Scaled :=
  let q := m.exponent - 2
  let unit := Nat.pow 2 q.toNat * Nat.pow 10 (-p).toNat
  { below := (4 * m.significand - if m.narrow then 1 else 2) * unit
    value := 4 * m.significand * unit
    above := (4 * m.significand + 2) * unit
    step := Nat.pow 2 (-q).toNat * Nat.pow 10 p.toNat }

/-- Whether the grid point `k` rounds to the double: the ends of the interval count when the
significand is even. -/
def Magnitude.holds (m : Magnitude) (s : Scaled) (k : Nat) : Bool :=
  if m.significand % 2 = 0 then s.below ≤ k * s.step && k * s.step ≤ s.above
  else s.below < k * s.step && k * s.step < s.above

/-- The point of the grid `10 ^ p` that is nearest to the value among those in the interval. -/
def Magnitude.onGrid (m : Magnitude) (p : Int) : Option Nat :=
  let s := m.scaled p
  let lower := s.value / s.step
  let upper := lower + 1
  match m.holds s lower, m.holds s upper with
  | true, true => some (if 2 * (s.value - lower * s.step) < s.step then lower else upper)
  | true, false => some lower
  | false, true => some upper
  | false, false => none

/-- The first grid from `10 ^ p` downwards that has a point in the interval, as that point and the
grid's exponent. -/
def Magnitude.search (m : Magnitude) : Nat → Int → Nat × Int
  | 0, p => let s := m.scaled p; (s.value / s.step, p)
  | n + 1, p =>
    match m.onGrid p with
    | some k => (k, p)
    | none => m.search n (p - 1)

/-- An exponent whose power of ten is above the value: `0.30103` exceeds the logarithm of two. -/
def Magnitude.topExponent (m : Magnitude) : Int :=
  (m.exponent + (m.significand.log2 + 1)) * 30103 / 100000 + 1

/-- The shortest decimal `k * 10 ^ p` of the double. Seventeen digits always suffice, so twenty-two
grids below the top hold it. -/
def Magnitude.shortest (m : Magnitude) : Nat × Int := m.search 22 m.topExponent

end MetricAlarm.Decimal
