import MetricAlarm.Data.Enclosed
import MetricAlarm.Data.Value
import MetricAlarm.Decimal.Reading
import MetricAlarm.Text.Hexadecimal

/-!
# JSON texts

A reader of JSON. A number without fraction and exponent is an integer if it fits sixty-four bits;
negative zero and all other numbers are decimals, and one beyond the largest double is refused.
Lists and tables nest at most 127 deep.
-/

namespace MetricAlarm.Data.Json

def isSpace (c : Char) : Bool := c = ' ' || c = '\t' || c = '\n' || c = '\x0d'

def skipSpace (cs : List Char) : List Char := cs.dropWhile isSpace

/-! ## Strings -/

/-- The character that one letter behind a backslash stands for. -/
def shortEscape? : Char → Option Char
  | '"' => some '"'
  | '\\' => some '\\'
  | '/' => some '/'
  | 'b' => some '\x08'
  | 'f' => some '\x0c'
  | 'n' => some '\n'
  | 'r' => some '\x0d'
  | 't' => some '\t'
  | _ => none

/-- Four hexadecimal digits; the first half of a pair needs the second half behind it. -/
def numberEscape? (cs : List Char) : Option (Char × List Char) :=
  match Text.hexValue? (cs.take 4), cs.drop 4 with
  | some high, '\\' :: 'u' :: more =>
    if 0xd800 ≤ high ∧ high < 0xdc00 then
      match Text.hexValue? (more.take 4) with
      | some low =>
        if 0xdc00 ≤ low ∧ low < 0xe000 ∧ 4 ≤ more.length then
          (Text.charOf? (0x10000 + (high - 0xd800) * 0x400 + (low - 0xdc00))).map (·, more.drop 4)
        else none
      | none => none
    else (Text.charOf? high).map (·, '\\' :: 'u' :: more)
  | some n, rest => if 4 ≤ cs.length then (Text.charOf? n).map (·, rest) else none
  | none, _ => none

/-- A string up to its closing quote, with its escapes as they are written. -/
def writtenBody : List Char → Option (List Char × List Char)
  | [] => none
  | '"' :: rest => some ([], rest)
  | '\\' :: c :: rest => (writtenBody rest).map fun (s, rest) => ('\\' :: c :: s, rest)
  | c :: rest => (writtenBody rest).map fun (s, rest) => (c :: s, rest)

/-- The characters that are written. The number bounds them. -/
def unescape : Nat → List Char → Option (List Char)
  | 0, cs => if cs = [] then some [] else none
  | n + 1, cs =>
    match cs with
    | [] => some []
    | '\\' :: 'u' :: rest =>
      match numberEscape? rest with
      | some (c, rest) => (unescape n rest).map (c :: ·)
      | none => none
    | '\\' :: e :: rest =>
      match shortEscape? e with
      | some c => (unescape n rest).map (c :: ·)
      | none => none
    | c :: rest => if c.toNat < 0x20 ∨ c = '\\' then none else (unescape n rest).map (c :: ·)

/-- A string behind its opening quote. -/
def string (cs : List Char) : Option (String × List Char) :=
  match writtenBody cs with
  | none => none
  | some (written, rest) =>
    (unescape written.length written).map fun s => (String.ofList s, rest)

/-! ## Numbers -/

def isNumberChar (c : Char) : Bool := c.isDigit || ['-', '+', '.', 'e', 'E'].contains c

/-- Digits without a needless zero in front. -/
def isWhole (cs : List Char) : Bool :=
  cs.all Char.isDigit && cs != [] && (cs.length = 1 || cs.head? != some '0')

/-- The fraction and exponent of a decimal are well formed: a point has digits behind it. -/
def isFractional (cs : List Char) : Bool :=
  match cs with
  | '.' :: r =>
    r.takeWhile Char.isDigit != [] && (Decimal.exponent? (r.dropWhile Char.isDigit)).isSome
  | r => (Decimal.exponent? r).isSome

def decimalValue? (cs : List Char) : Option Value :=
  match Decimal.read? cs with
  | some x => if x.isFinite then some (.decimal x) else none
  | none => none

def numberValue? (cs : List Char) : Option Value :=
  let (negative, digits) := if cs.head? = some '-' then (true, cs.tail) else (false, cs)
  let whole := digits.takeWhile Char.isDigit
  if !isWhole whole || !isFractional (digits.dropWhile Char.isDigit) then none
  else if whole = digits then
    let n : Int := if negative then -(Text.digitsValue whole : Int) else Text.digitsValue whole
    if isWide n && !(negative && n == 0) then some (.integer n) else decimalValue? cs
  else decimalValue? cs

/-! ## Values -/

/-- A member of a table. -/
def member (value : List Char → Option (Value × List Char)) (cs : List Char) :
    Option (Entry × List Char) :=
  match cs with
  | '"' :: rest =>
    match string rest with
    | none => none
    | some (name, rest) =>
      match skipSpace rest with
      | ':' :: rest => (value (skipSpace rest)).map fun (v, rest) => ((name, v), rest)
      | _ => none
  | _ => none

/-- A value in front. `limit` bounds the items of a list, and the number the nesting: at one, lists
and tables are refused. -/
def value (limit : Nat) : Nat → List Char → Option (Value × List Char)
  | 0, _ => none
  | depth + 1, cs =>
    match cs with
    | 'n' :: 'u' :: 'l' :: 'l' :: rest => some (.null, rest)
    | 't' :: 'r' :: 'u' :: 'e' :: rest => some (.bool true, rest)
    | 'f' :: 'a' :: 'l' :: 's' :: 'e' :: rest => some (.bool false, rest)
    | '"' :: rest => (string rest).map fun (s, rest) => (.text s, rest)
    | '[' :: rest =>
      if depth = 0 then none
      else
        (enclosed skipSpace false (value limit depth) ']' limit rest).map
          fun (xs, rest) => (.list xs, rest)
    | '\x7b' :: rest =>
      if depth = 0 then none
      else
        (enclosed skipSpace false (member (value limit depth)) '\x7d' limit rest).map
          fun (es, rest) =>
          (.table (entriesOf es), rest)
    | cs => (numberValue? (cs.takeWhile isNumberChar)).map (·, cs.dropWhile isNumberChar)

/-- The value of a whole text. -/
def parse? (text : String) : Option Value :=
  match value text.length 128 (skipSpace text.toList) with
  | some (v, rest) => if skipSpace rest = [] then some v else none
  | none => none

end MetricAlarm.Data.Json
