import MetricAlarm.Data.Yaml.Spot
import MetricAlarm.Text.Hexadecimal

/-!
# Tags

A tag tells the kind of a value: an exclamation mark and a word, perhaps with a handle in front of
it that stands for the beginning of the tag, or the tag as it is in angle brackets. Characters of a
tag may be written as octets behind percent signs. Readers return the rest.
-/

namespace MetricAlarm.Data.Yaml

/-- A tag as it is written: its handle, which is empty if there is none, and the word. -/
structure WrittenTag where
  handle : String
  word : String
  deriving DecidableEq

/-- The signs that tags hold besides the characters of names and octets. -/
def tagSigns : List Char :=
  [';', '/', '?', ':', '@', '&', '=', '+', '$', '.', '!', '~', '*', '\'', '(', ')']

/-- An octet behind its percent sign. -/
def octet? (ss : List Spot) : Option (Nat × List Spot) :=
  match ss with
  | p :: a :: b :: rest =>
    match Text.hexDigit? a.char, Text.hexDigit? b.char with
    | some x, some y => if p.char = '%' then some (16 * x + y, rest) else none
    | _, _ => none
  | _ => none

/-- So many octets that continue a character. -/
def moreOctets? : Nat → Nat → List Spot → Option (Nat × List Spot)
  | 0, n, ss => some (n, ss)
  | count + 1, n, ss =>
    match octet? ss with
    | none => none
    | some (o, rest) =>
      if 0x80 ≤ o ∧ o < 0xc0 then moreOctets? count (64 * n + (o - 0x80)) rest else none

/-- A character of one to four octets. -/
def octetChar? (ss : List Spot) : Option (Char × List Spot) := do
  let (o, rest) ← octet? ss
  let (n, rest) ←
    if o < 0x80 then some (o, rest)
    else if o < 0xc0 then none
    else if o < 0xe0 then moreOctets? 1 (o - 0xc0) rest
    else if o < 0xf0 then moreOctets? 2 (o - 0xe0) rest
    else if o < 0xf8 then moreOctets? 3 (o - 0xf0) rest
    else none
  some ((Text.charOf? n).getD '\ufffd', rest)

/-- The characters of a tag; in angle brackets they include commas and square brackets. The number
bounds them. -/
def tagWordUpTo (bracketed : Bool) : Nat → List Spot → Option (List Char × List Spot)
  | 0, _ => none
  | _, [] => some ([], [])
  | n + 1, s :: ss =>
    if s.char = '%' then
      match octetChar? (s :: ss) with
      | none => none
      | some (c, rest) => (tagWordUpTo bracketed n rest).map fun (w, rest) => (c :: w, rest)
    else if isWordChar s.char ∨ tagSigns.contains s.char ∨
        (bracketed ∧ [',', '[', ']'].contains s.char) then
      (tagWordUpTo bracketed n ss).map fun (w, rest) => (s.char :: w, rest)
    else some ([], s :: ss)

def tagWord? (bracketed : Bool) (ss : List Spot) : Option (List Char × List Spot) :=
  tagWordUpTo bracketed (ss.length + 1) ss

/-- An exclamation mark, the characters of a name, and perhaps a second mark. -/
def tagHandle? (ss : List Spot) : Option (List Char × List Spot) :=
  match ss with
  | [] => none
  | s :: ss =>
    if s.char ≠ '!' then none
    else
      let name := (ss.takeWhile (isWordChar ·.char)).map (·.char)
      let rest := ss.drop name.length
      if startsWith ['!'] rest then some ('!' :: name ++ ['!'], rest.tail)
      else some ('!' :: name, rest)

/-- The parts of a tag that begins with an exclamation mark. -/
def tagParts? (ss : List Spot) : Option (WrittenTag × List Spot) :=
  if startsWith ['!', '<'] ss then
    match tagWord? true (ss.drop 2) with
    | some (c :: word, rest) =>
      if startsWith ['>'] rest then some (⟨"", String.ofList (c :: word)⟩, rest.tail) else none
    | _ => none
  else
    match tagHandle? ss with
    | none => none
    | some (handle, rest) =>
      match tagWord? false rest with
      | none => none
      | some (word, rest) =>
        if 1 < handle.length ∧ handle.getLast? = some '!' then
          if word = [] then none else some (⟨String.ofList handle, String.ofList word⟩, rest)
        else
          match handle.tail ++ word with
          | [] => some (⟨"", "!"⟩, rest)
          | word => some (⟨"!", String.ofList word⟩, rest)

/-- A tag, behind which the word ends; in brackets a comma may follow. -/
def tag? (inBrackets : Bool) (ss : List Spot) : Option (WrittenTag × List Spot) :=
  match tagParts? ss with
  | none => none
  | some (t, rest) =>
    if endsWord rest || (inBrackets && startsWith [','] rest) then some (t, rest) else none

end MetricAlarm.Data.Yaml
