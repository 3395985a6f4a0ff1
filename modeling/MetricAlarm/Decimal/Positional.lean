import MetricAlarm.Decimal.Shortest

/-!
# Positional text of a double

A double is written with the digits of its shortest decimal, never with an exponent, and without a
fraction when it is whole. Zero keeps its sign, the text of not-a-number has none.
-/

namespace MetricAlarm.Decimal

/-- The digits of `k * 10 ^ p` in positional notation. -/
def positional (k : Nat) (p : Int) : List Char :=
  let digits := Nat.toDigits 10 k
  let places := (-p).toNat
  if places = 0 then digits ++ List.replicate p.toNat '0'
  else if places < digits.length then
    digits.take (digits.length - places) ++ '.' :: digits.drop (digits.length - places)
  else '0' :: '.' :: (List.replicate (places - digits.length) '0' ++ digits)

/-- Whether the sign bit is set. -/
def isNegative (x : Float) : Bool := x.toBits.toNat.testBit 63

/-- The digits of a finite double without its sign. -/
def magnitudeText (x : Float) : List Char :=
  let m := Magnitude.ofBits x.toBits.toNat
  if m.significand = 0 then ['0'] else
    let (k, p) := m.shortest
    positional k p

def text (x : Float) : String :=
  if x.isNaN then "NaN"
  else
    let sign := if isNegative x then ['-'] else []
    let digits := if x.isFinite then magnitudeText x else ['i', 'n', 'f']
    String.ofList (sign ++ digits)

/-- Text that always shows a fraction, as thresholds are written. -/
def textWithFraction (x : Float) : String :=
  let t := text x
  if t.toList.contains '.' || !x.isFinite then t else t ++ ".0"

end MetricAlarm.Decimal
