import MetricAlarm.Text.Range

/-!
# Blank characters

Words are separated by the characters with the property White_Space. Main statement:
`isBlank_of_isWhitespace`, the blanks of ASCII text are among them.
-/

namespace MetricAlarm.Text

/-- The ranges of White_Space: twenty-five characters. -/
def blanks : List (Nat × Nat) := [
  (0x9, 0xd), (0x20, 0x20), (0x85, 0x85), (0xa0, 0xa0), (0x1680, 0x1680), (0x2000, 0x200a),
  (0x2028, 0x2029), (0x202f, 0x202f), (0x205f, 0x205f), (0x3000, 0x3000)]

def isBlank (c : Char) : Bool := inRanges blanks c.toNat

theorem isBlank_of_isWhitespace (c : Char) (h : c.isWhitespace = true) : isBlank c = true := by
  simp only [Char.isWhitespace, Bool.or_eq_true, decide_eq_true_eq] at h
  rcases h with ((rfl | rfl) | rfl) | rfl <;> decide

/-- Drop the blank characters at both ends. -/
def trim (cs : List Char) : List Char :=
  ((cs.dropWhile isBlank).reverse.dropWhile isBlank).reverse

/-- Whether a text holds nothing but blank characters. -/
def allBlank (s : String) : Bool := s.toList.all isBlank

end MetricAlarm.Text
