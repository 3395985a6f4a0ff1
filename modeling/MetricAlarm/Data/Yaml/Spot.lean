/-!
# Characters in their places

YAML shows structure by lines and columns, so that its text is read as characters with their places.
Line breaks of all forms end up as one character each: a line feed, or one of the two separators of
Unicode.
-/

namespace MetricAlarm.Data.Yaml

/-- A character and where it stands; lines, columns and places count from zero. -/
structure Spot where
  char : Char
  place : Nat
  line : Nat
  column : Nat

/-- The characters that a YAML text may hold. -/
def isAllowed (c : Char) : Bool :=
  let n := c.toNat
  [0x09, 0x0a, 0x0d, 0x85].contains n || (0x20 ≤ n && n ≤ 0x7e) || (0xa0 ≤ n && n ≤ 0xfffd) ||
    0x10000 ≤ n

/-- The line break that a character stands for. -/
def break? (c : Char) : Option Char :=
  match c.toNat with
  | 0x0a | 0x0d | 0x85 => some '\n'
  | 0x2028 | 0x2029 => some c
  | _ => none

/-- The characters from some place on. -/
def spotsFrom? (place line column : Nat) : List Char → Option (List Spot)
  | [] => some []
  | '\x0d' :: '\n' :: cs =>
    (spotsFrom? (place + 2) (line + 1) 0 cs).map (⟨'\n', place, line, column⟩ :: ·)
  | c :: cs =>
    if !isAllowed c then none
    else
      match break? c with
      | some b => (spotsFrom? (place + 1) (line + 1) 0 cs).map (⟨b, place, line, column⟩ :: ·)
      | none =>
        (spotsFrom? (place + 1) line (column + 1) cs).map (⟨c, place, line, column⟩ :: ·)

def spots? (cs : List Char) : Option (List Spot) := spotsFrom? 0 0 0 cs

/-! ## Classes -/

def isBlank (c : Char) : Bool := c = ' ' || c = '\t'

/-- Whether a character ends a line, once the places are found. -/
def isBreak (c : Char) : Bool := (break? c).isSome

/-- Whether nothing but a blank or a line break follows. -/
def endsWord : List Spot → Bool
  | [] => true
  | s :: _ => isBlank s.char || isBreak s.char

/-- Letters, digits and the signs that names may hold. -/
def isWordChar (c : Char) : Bool := c.isAlphanum || c = '_' || c = '-'

/-- Whether the characters in front are these. -/
def startsWith : List Char → List Spot → Bool
  | [], _ => true
  | _ :: _, [] => false
  | c :: cs, s :: ss => s.char = c && startsWith cs ss

/-- Whether three of the character stand at the beginning of a line, and nothing else in the
word. -/
def isDocumentMark (c : Char) (ss : List Spot) : Bool :=
  match ss with
  | [] => false
  | s :: _ => s.column = 0 && startsWith [c, c, c] ss && endsWord (ss.drop 3)

/-- Whether a document begins or ends here by a mark. -/
def atDocumentMark (ss : List Spot) : Bool := isDocumentMark '-' ss || isDocumentMark '.' ss

/-- What is left behind a comment in front. -/
def skipComment (ss : List Spot) : List Spot :=
  if startsWith ['#'] ss then ss.dropWhile (!isBreak ·.char) else ss

/-- The rest of the line is blank or a comment: what is left behind it and its line break. -/
def endLine? (ss : List Spot) : Option (List Spot) :=
  match skipComment (ss.dropWhile (isBlank ·.char)) with
  | [] => some []
  | s :: rest => if isBreak s.char then some rest else none

end MetricAlarm.Data.Yaml
