import MetricAlarm.Data.Value
import MetricAlarm.Decimal.Reading
import MetricAlarm.Text.Hexadecimal

/-!
# Scalars

What a scalar stands for: a plain one for nothing, a truth value, a number or a text, by its look;
one in quotes or in a block for a text; one with a tag for what the tag says. An integer has at most
a hundred and twenty-eight bits, and digits behind a needless zero are a text.
-/

namespace MetricAlarm.Data.Yaml

/-! ## Words -/

def isNullWord (word : String) : Bool := ["~", "null", "Null", "NULL"].contains word

def boolean? (word : String) : Option Bool :=
  if ["true", "True", "TRUE"].contains word then some true
  else if ["false", "False", "FALSE"].contains word then some false
  else none

/-! ## Numbers -/

/-- The value of digits in a base, at least one. -/
def digitsIn? (base : Nat) (cs : List Char) : Option Nat :=
  if cs = [] then none
  else
    cs.foldlM
      (fun n c =>
        match Text.hexDigit? c with
        | some d => if d < base then some (base * n + d) else none
        | none => none)
      0

/-- Digits behind a mark of their base, or decimal digits. -/
def magnitude? : List Char → Option Nat
  | '0' :: 'x' :: ds => digitsIn? 16 ds
  | '0' :: 'o' :: ds => digitsIn? 8 ds
  | '0' :: 'b' :: ds => digitsIn? 2 ds
  | ds => Text.natural? ds

/-- Whether digits have a needless zero in front of them. -/
def isPadded (cs : List Char) : Bool :=
  let digits := (Decimal.splitSign cs).2
  digits.head? = some '0' && 1 < digits.length && digits.all Char.isDigit

/-- Two to the power of a hundred and twenty-seven. -/
def halfRange : Nat := 170141183460469231731687303715884105728

def integer? (cs : List Char) : Option Int :=
  if isPadded cs then none
  else
    let (negative, digits) := Decimal.splitSign cs
    match magnitude? digits with
    | none => none
    | some n =>
      if negative then if n ≤ halfRange then some (-(n : Int)) else none
      else if n < 2 * halfRange then some n else none

def isInfinityWord (cs : List Char) : Bool :=
  [".inf", ".Inf", ".INF"].contains (String.ofList cs)

def isNoNumberWord (cs : List Char) : Bool :=
  [".nan", ".NaN", ".NAN"].contains (String.ofList cs)

/-- A finite decimal, an infinity, or what is no number. -/
def decimal? (cs : List Char) : Option Float :=
  let (negative, magnitude) := Decimal.splitSign cs
  if isInfinityWord magnitude then some (Decimal.withSign negative (1 / 0))
  else if isNoNumberWord cs then some (0 / 0)
  else
    match Decimal.read? cs with
    | some x => if x.isFinite then some x else none
    | none => none

/-! ## Values -/

/-- What a plain scalar without a tag stands for. -/
def plainValue (text : String) : Value :=
  let cs := text.toList
  if text = "" ∨ isNullWord text then .null
  else
    match boolean? text, integer? cs with
    | some b, _ => .bool b
    | none, some n => .integer n
    | none, none =>
      match if isPadded cs then none else decimal? cs with
      | some x => .decimal x
      | none => .text text

/-- What a scalar without a tag stands for. -/
def untaggedValue (plain : Bool) (text : String) : Value :=
  if plain then plainValue text else .text text

/-- The name of a kind that the document has for itself: its tag begins with an exclamation mark. -/
def localName? (tag : Option String) : Option String :=
  match tag.map String.toList with
  | some ['!'] => some "!"
  | some ('!' :: name) => some (String.ofList name)
  | _ => none

/-- A value of a local kind is a table with the name of the kind. -/
def named (tag : Option String) (v : Value) : Value :=
  match localName? tag with
  | some name => .table [(name, v)]
  | none => v

/-- What a scalar stands for. -/
def scalarValue? (tag : Option String) (plain : Bool) (text : String) : Option Value :=
  match tag with
  | none => some (untaggedValue plain text)
  | some t =>
    if (localName? tag).isSome then some (named tag (untaggedValue plain text))
    else
      match t with
      | "tag:yaml.org,2002:bool" => (boolean? text).map .bool
      | "tag:yaml.org,2002:int" => (integer? text.toList).map .integer
      | "tag:yaml.org,2002:float" => (decimal? text.toList).map .decimal
      | "tag:yaml.org,2002:null" => if isNullWord text then some .null else none
      | _ => some (.text text)

end MetricAlarm.Data.Yaml
