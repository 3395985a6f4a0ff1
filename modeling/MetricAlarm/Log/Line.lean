import MetricAlarm.Log.Event

/-!
# Log lines

A line shows the level in brackets, the last name of the target, the message and the fields. On a
terminal the level is coloured, field names are slanted and their equals signs dimmed. A line break
in a field makes further lines. Main statement: `Record.lines_ne_nil`, a record takes up a line.
-/

namespace MetricAlarm.Log

/-- How a line is made up. -/
inductive Style
  | plain
  | terminal
  deriving DecidableEq, Repr

/-- A terminal sequence that switches to a rendition. -/
def rendition (code : String) : String := "\x1b[" ++ code ++ "m"

/-- A text in a rendition, after which the terminal is as before. -/
def rendered (code text : String) : String := rendition code ++ text ++ rendition "0"

def Level.colour : Level → String
  | .trace => "35"
  | .debug => "34"
  | .info => "32"
  | .warn => "33"
  | .error => "31"

def Level.label (l : Level) : Style → String
  | .plain => "[" ++ l.name ++ "]"
  | .terminal => rendered l.colour ("[" ++ l.name ++ "]")

/-- What stands in front of the first `::`. -/
def firstName : List Char → List Char
  | [] => []
  | ':' :: ':' :: _ => []
  | c :: cs => c :: firstName cs

/-- The part of a target behind its last `::`, which is the first one seen from behind. -/
def component (target : String) : String :=
  String.ofList (firstName target.toList.reverse).reverse

/-- Characters of a message that a terminal would obey are shown by their numbers. -/
def disarmed (c : Char) : List Char :=
  let n := c.toNat
  if [0x07, 0x08, 0x0c, 0x1b, 0x7f].contains n then
    '\\' :: 'x' :: (if n < 16 then ['0'] else []) ++ Nat.toDigits 16 n
  else if 0x80 ≤ n ∧ n ≤ 0x9f then Text.numberEscape c
  else [c]

def messageText (message : String) : String := String.ofList (message.toList.flatMap disarmed)

def Field.shown (f : Field) : Style → String
  | .plain => f.name ++ "=" ++ f.text
  | .terminal => rendered "3" f.name ++ rendered "2" "=" ++ f.text

/-- The text of a record. -/
def Record.text (r : Record) (style : Style) : String :=
  r.level.label style ++ " " ++ component r.target ++ ": " ++
    " ".intercalate (messageText r.message :: r.fields.map (·.shown style))

/-- The lines of a text; a carriage return in front of a line break belongs to the break. -/
def splitLines : List Char → List (List Char)
  | [] => [[]]
  | '\n' :: cs => [] :: splitLines cs
  | '\x0d' :: '\n' :: cs => [] :: splitLines cs
  | c :: cs =>
    match splitLines cs with
    | [] => [[c]]
    | line :: more => (c :: line) :: more

/-- The lines that a record takes up. -/
def Record.lines (r : Record) (style : Style) : List String :=
  (splitLines (r.text style).toList).map String.ofList

theorem splitLines_ne_nil (cs : List Char) : splitLines cs ≠ [] := by
  fun_induction splitLines cs <;> simp

theorem Record.lines_ne_nil (r : Record) (style : Style) : r.lines style ≠ [] := by
  simp [Record.lines, splitLines_ne_nil]

end MetricAlarm.Log
