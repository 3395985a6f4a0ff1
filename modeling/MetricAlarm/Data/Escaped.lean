import MetricAlarm.Text.Hexadecimal

/-!
# Texts with escapes

A text in double quotes as settings files and variables write it: on one line, without controls
other than the tab, and with a backslash in front of a quote, a backslash, a letter for a control,
or a code point in four or eight hexadecimal digits. Readers return the rest behind the closing
quote.
-/

namespace MetricAlarm.Data.Escaped

/-- Whether the character stands for itself. -/
def isPlain (c : Char) : Bool := c = '\t' || (0x20 ≤ c.toNat && c.toNat ≠ 0x7f)

/-- The character that one letter behind a backslash stands for. -/
def letter? : Char → Option Char
  | '"' => some '"'
  | '\\' => some '\\'
  | 'b' => some '\x08'
  | 'f' => some '\x0c'
  | 'n' => some '\n'
  | 'r' => some '\x0d'
  | 't' => some '\t'
  | _ => none

/-- An escape behind its backslash. -/
def escape? : List Char → Option (Char × List Char)
  | 'u' :: cs => Text.charOfDigits? 4 cs
  | 'U' :: cs => Text.charOfDigits? 8 cs
  | c :: cs => (letter? c).map (·, cs)
  | [] => none

/-- A text behind its opening quote. The number bounds the characters; those read before are given
backwards. -/
def bodyUpTo : Nat → List Char → List Char → Option (String × List Char)
  | 0, _, _ => none
  | n + 1, read, cs =>
    match cs with
    | [] => none
    | '"' :: rest => some (String.ofList read.reverse, rest)
    | '\\' :: rest =>
      match escape? rest with
      | some (c, rest) => bodyUpTo n (c :: read) rest
      | none => none
    | c :: rest => if isPlain c then bodyUpTo n (c :: read) rest else none

def body (cs : List Char) : Option (String × List Char) := bodyUpTo (cs.length + 1) [] cs

end MetricAlarm.Data.Escaped
