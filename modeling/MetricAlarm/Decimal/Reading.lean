import MetricAlarm.Text.DecimalDigit

/-!
# Reading decimals

A decimal is an optional sign, digits with at most one point among or beside them, and, where the
form allows it, an exponent. It is read as the double nearest to it, of two equally near the one
with even significand; a decimal beyond the largest double reads as infinite.
-/

namespace MetricAlarm.Decimal

/-- A decimal without its sign: `digits * 10 ^ exponent`. -/
structure Unsigned where
  digits : List Char
  exponent : Int

/-- The double nearest to the decimal. The leading digit decides first when the decimal is far
outside the range of the doubles. -/
def Unsigned.toFloat (u : Unsigned) : Float :=
  let significant := u.digits.dropWhile (· == '0')
  if significant = [] then 0
  else
    let top := (significant.length : Int) + u.exponent
    if 400 < top then 1 / 0
    else if top < -400 then 0
    else Float.ofScientific (Text.digitsValue significant) (u.exponent < 0) u.exponent.natAbs

def withSign (negative : Bool) (x : Float) : Float := if negative then -x else x

/-- Split off an optional sign. -/
def splitSign : List Char → Bool × List Char
  | '-' :: cs => (true, cs)
  | '+' :: cs => (false, cs)
  | cs => (false, cs)

/-- Digits with at most one point, at least one digit in all, and what follows them. -/
def mantissa? (cs : List Char) : Option (Unsigned × List Char) :=
  let whole := cs.takeWhile Char.isDigit
  match cs.dropWhile Char.isDigit with
  | '.' :: r =>
    let fraction := r.takeWhile Char.isDigit
    if whole = [] ∧ fraction = [] then none
    else some (⟨whole ++ fraction, -(fraction.length : Int)⟩, r.dropWhile Char.isDigit)
  | r => if whole = [] then none else some (⟨whole, 0⟩, r)

/-- The exponent part, if any, at the end of a decimal. -/
def exponent? : List Char → Option Int
  | [] => some 0
  | c :: cs =>
    if c = 'e' ∨ c = 'E' then
      let (negative, ds) := splitSign cs
      (Text.natural? ds).map fun n => if negative then -(n : Int) else n
    else none

/-- A decimal without exponent. -/
def readPlain? (cs : List Char) : Option Float := do
  let (negative, cs) := splitSign cs
  match ← mantissa? cs with
  | (u, []) => some (withSign negative u.toFloat)
  | _ => none

/-- A decimal with or without exponent. -/
def read? (cs : List Char) : Option Float := do
  let (negative, cs) := splitSign cs
  let (u, r) ← mantissa? cs
  let e ← exponent? r
  some (withSign negative (Unsigned.toFloat { u with exponent := u.exponent + e }))

end MetricAlarm.Decimal
