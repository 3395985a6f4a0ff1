import MetricAlarm.Data.Value
import MetricAlarm.Decimal.Reading
import MetricAlarm.Text.Hexadecimal

/-!
# Numbers in TOML

Decimal integers and decimals with an optional sign, integers in other bases behind a mark, and the
words for infinities and for what is no number. Single underscores may stand between digits, and no
needless zero stands in front. An integer fits sixty-four bits with sign; a decimal is not beyond
the largest double. Readers return the rest.
-/

namespace MetricAlarm.Data.Toml

/-- Digits in front, each perhaps behind an underscore, without the underscores. -/
def moreDigits (isDigit : Char → Bool) : List Char → List Char × List Char
  | '_' :: c :: cs =>
    if isDigit c then
      let (ds, rest) := moreDigits isDigit cs
      (c :: ds, rest)
    else ([], '_' :: c :: cs)
  | c :: cs =>
    if isDigit c then
      let (ds, rest) := moreDigits isDigit cs
      (c :: ds, rest)
    else ([], c :: cs)
  | [] => ([], [])

/-- At least one digit, with single underscores between the digits. -/
def digitGroup? (isDigit : Char → Bool) : List Char → Option (List Char × List Char)
  | c :: cs =>
    if isDigit c then
      let (ds, rest) := moreDigits isDigit cs
      some (c :: ds, rest)
    else none
  | [] => none

/-- The digits of a decimal integer without sign. -/
def whole? : List Char → Option (List Char × List Char)
  | '0' :: cs => some (['0'], cs)
  | cs => digitGroup? Char.isDigit cs

/-! ## Integers -/

def checkedInteger (n : Int) (rest : List Char) : Option (Value × List Char) :=
  if -9223372036854775808 ≤ n ∧ n ≤ 9223372036854775807 then some (.integer n, rest) else none

/-- An integer in a base behind its mark. -/
def inBase? (base : Nat) (cs : List Char) : Option (Value × List Char) :=
  let isDigit (c : Char) : Bool := (Text.hexDigit? c).any (· < base)
  match digitGroup? isDigit cs with
  | none => none
  | some (ds, rest) =>
    checkedInteger (ds.foldl (fun n c => base * n + (Text.hexDigit? c).getD 0) 0 : Nat) rest

def integer? (cs : List Char) : Option (Value × List Char) :=
  match cs with
  | '0' :: 'x' :: cs => inBase? 16 cs
  | '0' :: 'o' :: cs => inBase? 8 cs
  | '0' :: 'b' :: cs => inBase? 2 cs
  | cs =>
    let (negative, cs) := Decimal.splitSign cs
    match whole? cs with
    | none => none
    | some (ds, rest) =>
      let n : Int := Text.digitsValue ds
      checkedInteger (if negative then -n else n) rest

/-! ## Decimals -/

/-- The exponent in front, written with a small letter and without underscores. -/
def exponent? : List Char → Option (List Char × List Char)
  | [] => none
  | c :: cs =>
    if c = 'e' ∨ c = 'E' then
      let (negative, ds) := Decimal.splitSign cs
      (digitGroup? Char.isDigit ds).map fun (ds, rest) =>
        ('e' :: (if negative then '-' :: ds else ds), rest)
    else none

/-- A fraction, an exponent or both. -/
def scale? : List Char → Option (List Char × List Char)
  | '.' :: cs =>
    match digitGroup? Char.isDigit cs with
    | none => none
    | some (ds, rest) =>
      match exponent? rest with
      | none => some ('.' :: ds, rest)
      | some (e, rest) => some ('.' :: ds ++ e, rest)
  | cs => exponent? cs

/-- A word for an infinity or for what is no number, without sign. -/
def numberWord? : List Char → Option (Float × List Char)
  | 'i' :: 'n' :: 'f' :: rest => some (1 / 0, rest)
  | 'n' :: 'a' :: 'n' :: rest => some (0 / 0, rest)
  | _ => none

def decimal? (cs : List Char) : Option (Value × List Char) :=
  let (negative, cs) := Decimal.splitSign cs
  match numberWord? cs with
  | some (x, rest) => some (.decimal (Decimal.withSign negative x), rest)
  | none =>
    match whole? cs with
    | none => none
    | some (ds, rest) =>
      match scale? rest with
      | none => none
      | some (more, rest) =>
        match Decimal.read? (ds ++ more) with
        | none => none
        | some x =>
          if x.isFinite ∨ negative then some (.decimal (Decimal.withSign negative x), rest)
          else none

end MetricAlarm.Data.Toml
