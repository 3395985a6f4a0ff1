import MetricAlarm.Data.Enclosed
import MetricAlarm.Data.Escaped
import MetricAlarm.Data.Value
import MetricAlarm.Decimal.Reading
import MetricAlarm.Text.Blank

/-!
# Values of environment variables

A variable holds a truth value, a number, a text in quotes, a list in brackets or a table in braces;
whatever reads as none of these to its end is a text as it stands. Only a number with a point is a
decimal, and only one that fits sixty-four bits is an integer. A list or a table may have a comma
behind its last item; its closing sign stands directly behind the opening one or behind that comma.
-/

namespace MetricAlarm.Data.Literal

/-- ASCII white space. -/
def isSpace (c : Char) : Bool := [' ', '\t', '\n', '\x0c', '\x0d'].contains c

def skipSpace (cs : List Char) : List Char := cs.dropWhile isSpace

def isSeparator (c : Char) : Bool := [',', '[', ']', '\x7b', '\x7d'].contains c

/-- An integer with an optional sign that fits sixty-four bits; a sign in front of it halves the
range of negative ones. -/
def integer? (cs : List Char) : Option Int :=
  let (negative, digits) := Decimal.splitSign cs
  match Text.natural? digits with
  | none => none
  | some n =>
    let n : Int := if negative then -(n : Int) else n
    if isWide n then some n else none

/-- A number, or else the text itself. -/
def bare (cs : List Char) : Value :=
  let word := Text.trim cs
  let decimal := if word.contains '.' then Decimal.read? word else none
  match decimal, integer? word with
  | some x, _ => .decimal x
  | none, some n => .integer n
  | none, none => .text (String.ofList word)

def isNameChar (c : Char) : Bool := c.isAlphanum || c = '_' || c = '-'

def name (cs : List Char) : Option (String × List Char) :=
  match cs with
  | '"' :: rest => Escaped.body rest
  | cs =>
    let word := cs.takeWhile isNameChar
    if word = [] then none else some (String.ofList word, cs.dropWhile isNameChar)

def member (value : List Char → Option (Value × List Char)) (cs : List Char) :
    Option (Entry × List Char) :=
  match name (skipSpace cs) with
  | none => none
  | some (key, rest) =>
    match skipSpace rest with
    | '=' :: rest => (value rest).map fun (v, rest) => ((key, v), rest)
    | _ => none

/-- A value in front, without the space around it. `limit` bounds the items of a list, and the
number the nesting. -/
def value (limit : Nat) : Nat → List Char → Option (Value × List Char)
  | 0, _ => none
  | depth + 1, cs =>
    (match skipSpace cs with
      | 't' :: 'r' :: 'u' :: 'e' :: rest => some (Value.bool true, rest)
      | 'f' :: 'a' :: 'l' :: 's' :: 'e' :: rest => some (.bool false, rest)
      | '\x7b' :: rest =>
        (enclosed id true (member (value limit depth)) '\x7d' limit rest).map fun (es, rest) =>
          (.table (entriesOf es), rest)
      | '[' :: rest =>
        (enclosed id true (value limit depth) ']' limit rest).map
          fun (xs, rest) => (.list xs, rest)
      | '"' :: rest => (Escaped.body rest).map fun (s, rest) => (.text s, rest)
      | '\'' :: rest =>
        match rest with
        | c :: '\'' :: rest => some (.text (String.singleton c), rest)
        | _ => none
      | cs => some (bare (cs.takeWhile (!isSeparator ·)), cs.dropWhile (!isSeparator ·))).map
      fun (v, rest) => (v, skipSpace rest)

/-- The value that a text stands for. -/
def parse (text : String) : Value :=
  match value text.length (text.length + 1) text.toList with
  | some (v, []) => v
  | _ => .text text

end MetricAlarm.Data.Literal
