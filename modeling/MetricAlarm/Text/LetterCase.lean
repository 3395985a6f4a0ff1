/-!
# Letter case

Keywords ignore the case of the ASCII letters only. Names of states and severities are compared in
upper case, textual comparison operators in lower case, both over all of Unicode: here stand the
characters outside ASCII whose other case consists of ASCII letters. A character with any other
mapping keeps a character outside ASCII, so it can be part of no name and is left alone.
-/

namespace MetricAlarm.Text

/-- Equality up to the case of ASCII letters. -/
def sameIgnoringCase (a b : String) : Bool :=
  a.toList.map Char.toLower == b.toList.map Char.toLower

theorem sameIgnoringCase_comm (a b : String) : sameIgnoringCase a b = sameIgnoringCase b a := by
  simp only [sameIgnoringCase]
  exact Bool.beq_comm

/-- The upper-case form of a character, as far as it consists of ASCII letters. -/
def upperForm (c : Char) : List Char :=
  match c.toNat with
  | 0xdf => ['S', 'S']
  | 0x131 => ['I']
  | 0x17f => ['S']
  | 0xfb00 => ['F', 'F']
  | 0xfb01 => ['F', 'I']
  | 0xfb02 => ['F', 'L']
  | 0xfb03 => ['F', 'F', 'I']
  | 0xfb04 => ['F', 'F', 'L']
  | 0xfb05 => ['S', 'T']
  | 0xfb06 => ['S', 'T']
  | _ => [c.toUpper]

/-- The lower-case form of a character, as far as it is an ASCII letter: of the others only the
kelvin sign has one. -/
def lowerForm (c : Char) : Char := if c.toNat = 0x212a then 'k' else c.toLower

def upper (s : String) : String := String.ofList (s.toList.flatMap upperForm)

def lower (s : String) : String := String.ofList (s.toList.map lowerForm)

end MetricAlarm.Text
