import MetricAlarm.Text.Blank
import MetricAlarm.Text.DecimalDigit

/-!
# Tokens

An expression is a sequence of words, quoted strings and eleven kinds of signs, separated by blanks.
Words are not classified: whether `and` or `lt` is a keyword or a name depends on its place. The
text of a token is exactly what stands in the source.
-/

namespace MetricAlarm

inductive Token
  | word (text : String)
  /-- A quoted string, with its quotes. -/
  | quoted (text : String)
  | leftParen
  | rightParen
  | leftBrace
  | rightBrace
  | comma
  | equals
  | less
  | lessEqual
  | greater
  | greaterEqual
  | and
  | or
  deriving DecidableEq, Repr

namespace Token

def text : Token → String
  | .word t | .quoted t => t
  | .leftParen => "("
  | .rightParen => ")"
  | .leftBrace => "\x7b"
  | .rightBrace => "\x7d"
  | .comma => ","
  | .equals => "="
  | .less => "<"
  | .lessEqual => "<="
  | .greater => ">"
  | .greaterEqual => ">="
  | .and => "&&"
  | .or => "||"

/-- The characters that end a word without being blank. -/
def restricted : List Char :=
  ['(', ')', '\x7b', '\x7d', '&', '|', '<', '>', '=', '"', ',']

def isRestricted (c : Char) : Bool := restricted.contains c

def isWordChar (c : Char) : Bool := !Text.isBlank c && !isRestricted c

end Token

/-- A token and the offset of its first character. -/
structure Placed where
  token : Token
  position : Nat
  deriving DecidableEq, Repr

/-! ## Words that look like numbers -/

/-- A digit of any script at each place, at least one. -/
def looksNatural (w : String) : Bool :=
  w.toList != [] && w.toList.all Text.isDecimalDigit

/-- Digits of any script with at most one point: a digit in front of the point, or one behind it. -/
def looksUnsigned (cs : List Char) : Bool :=
  let whole := cs.takeWhile Text.isDecimalDigit
  match cs.dropWhile Text.isDecimalDigit with
  | [] => whole != []
  | '.' :: fraction => fraction.all Text.isDecimalDigit && (whole != [] || fraction != [])
  | _ => false

/-- An unsigned number behind an optional sign. -/
def looksNumeric (w : String) : Bool :=
  match w.toList with
  | '-' :: cs | '+' :: cs => looksUnsigned cs
  | cs => looksUnsigned cs

end MetricAlarm
