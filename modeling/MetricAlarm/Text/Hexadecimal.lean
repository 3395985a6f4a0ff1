/-!
# Hexadecimal digits

Escapes name a character by its code point in hexadecimal digits.
-/

namespace MetricAlarm.Text

def hexDigit? (c : Char) : Option Nat :=
  if '0' ≤ c ∧ c ≤ '9' then some (c.toNat - 48)
  else if 'a' ≤ c ∧ c ≤ 'f' then some (c.toNat - 87)
  else if 'A' ≤ c ∧ c ≤ 'F' then some (c.toNat - 55)
  else none

/-- The number that the digits stand for. -/
def hexValue? (cs : List Char) : Option Nat :=
  cs.foldlM (fun n c => (hexDigit? c).map (16 * n + ·)) 0

/-- The character of a number that stands for one. -/
def charOf? (n : Nat) : Option Char := if n.isValidChar then some (Char.ofNat n) else none

/-- The character of a code point in so many digits, and the rest behind them. -/
def charOfDigits? (digits : Nat) (cs : List Char) : Option (Char × List Char) :=
  if cs.length < digits then none
  else
    match hexValue? (cs.take digits) with
    | none => none
    | some n => (charOf? n).map (·, cs.drop digits)

end MetricAlarm.Text
