import MetricAlarm.Decimal.Reading
import MetricAlarm.Log.Event
import MetricAlarm.Log.Pattern
import MetricAlarm.Text.LetterCase

/-!
# Log filters

A filter is a list of directives with commas between them: `info`, `thresh_engine=debug`,
`thresh_stats`. A directive with a target covers the targets that start with it. Of the directives
that cover a record the one with the longest target decides, then the one with the most fields, then
the one whose words are last in the order of texts, and of two with the same words the later one.
-/

namespace MetricAlarm.Log

/-- What a directive shows: the levels up to a verbosity, none at zero. -/
abbrev Verbosity := Nat

structure Directive where
  /-- The beginning of the targets it covers; all targets without one. -/
  target : Option (List Char)
  /-- Fields that a record must have. -/
  fields : List (List Char)
  /-- Whether it speaks of spans of time, of which there are none. -/
  spans : Bool
  verbosity : Verbosity

/-- The names of the verbosities, from nothing to everything. -/
def verbosityNames : List String := ["off", "error", "warn", "info", "debug", "trace"]

/-- A verbosity by its name in any case or by its number. -/
def verbosity? (cs : List Char) : Option Verbosity :=
  let digits := if cs.head? = some '+' then cs.tail else cs
  match Text.natural? digits with
  | some n => if n < verbosityNames.length then some n else none
  | none =>
    let word := String.ofList cs
    verbosityNames.findIdx? fun name => Text.sameIgnoringCase name word

/-! ## Directives as texts

The scan runs over the directive without the blanks around it, but the parts it finds are cut out
of the directive as given, at the same offsets. -/

/-- Where the scan of a directive is. The numbers are offsets, in octets, of the parts begun. -/
inductive Scan
  | start
  | levelOrTarget (first : Nat)
  | span (first : Nat)
  | field (first : Nat)
  | afterFields
  | afterSpan
  | level (first : Nat)

/-- A directive under construction. -/
structure Draft where
  given : List Char
  target : Option (List Char)
  fields : List (List Char)
  spans : Bool

/-- What is left behind so many octets. -/
def dropOctets : Nat → List Char → List Char
  | 0, cs => cs
  | _, [] => []
  | n, c :: cs => dropOctets (n - c.utf8Size) cs

/-- The characters in front that so many octets hold. -/
def takeOctets (n : Nat) (cs : List Char) : List Char :=
  cs.take (cs.length - (dropOctets n cs).length)

/-- The characters from one offset up to another. -/
def Draft.cut (d : Draft) (first last : Nat) : List Char :=
  dropOctets first (takeOctets last d.given)

def beginsDirective (c : Char) : Bool := Text.isAlphanumeric c || ['-', ':', '_'].contains c

/-- The words for numbers without digits. -/
def numberWords : List String := ["inf", "infinity", "nan"]

/-- A value that a field may be asked for: a number or a pattern. -/
def isFieldValue (value : List Char) : Bool :=
  let magnitude := String.ofList ((Decimal.splitSign value).2.map Char.toLower)
  (Decimal.read? value).isSome || numberWords.contains magnitude || Pattern.isWellFormed value

/-- A field that a record must have; one with a value, up to a second equals sign, asks for a
span. -/
def Draft.addField (d : Draft) (field : List Char) : Option Draft :=
  let name := field.takeWhile (· ≠ '=')
  match field.drop name.length with
  | [] => if field = [] then none else some { d with fields := d.fields ++ [name] }
  | _ :: value =>
    if isFieldValue (value.takeWhile (· ≠ '=')) then
      some { d with fields := d.fields ++ [name], spans := true }
    else none

/-- Take the character at an offset. -/
def Scan.next (d : Draft) (s : Scan) (i : Nat) (c : Char) : Option (Draft × Scan) :=
  match s with
  | .start =>
    if c = '[' then some (d, .span (i + 1))
    else if beginsDirective c then some (d, .levelOrTarget i)
    else none
  | .levelOrTarget first =>
    if c = '=' then some ({ d with target := some (d.cut first i) }, .level (i + 1))
    else if c = '[' then some ({ d with target := some (d.cut first i) }, .span (i + 1))
    else some (d, s)
  | .span first =>
    if c = ']' then some ({ d with spans := true }, .afterSpan)
    else if c = '\x7b' then
      some ({ d with spans := d.spans || d.cut first i != [] }, .field (i + 1))
    else some (d, s)
  | .field first =>
    if c = '\x7d' then (d.addField (d.cut first i)).map (·, .afterFields)
    else some (d, s)
  | .afterFields => if c = ']' then some (d, .afterSpan) else none
  | .afterSpan => if c = '=' then some (d, .level (i + 1)) else none
  | .level _ => some (d, s)

def Scan.run (d : Draft) (s : Scan) (i : Nat) : List Char → Option (Draft × Scan)
  | [] => some (d, s)
  | c :: cs =>
    match Scan.next d s i c with
    | none => none
    | some (d, s) => Scan.run d s (i + c.utf8Size) cs

/-- The verbosity of a directive that names no level. -/
def everything : Verbosity := 5

def Draft.directive (d : Draft) (verbosity : Verbosity) : Directive :=
  ⟨d.target, d.fields, d.spans, verbosity⟩

/-- The directive of a text; a word that names no level is a target. -/
def Directive.parse? (given : List Char) : Option Directive :=
  match Scan.run ⟨given, none, [], false⟩ .start 0 (Text.trim given) with
  | none => none
  | some (d, .levelOrTarget first) =>
    let word := dropOctets first given
    match verbosity? word with
    | some v => some (d.directive v)
    | none => some ({ d with target := some word }.directive everything)
  | some (d, .level first) =>
    match dropOctets first given with
    | [] => some (d.directive everything)
    | level => (verbosity? level).map d.directive
  | some (d, .afterSpan) => some (d.directive everything)
  | some _ => none

/-! ## Filters -/

abbrev Filter := List Directive

/-- The parts of a text between commas. -/
def splitAtCommas (cs : List Char) : List (List Char) :=
  cs.foldr
    (fun c parts =>
      match parts with
      | [] => [[c]]
      | p :: ps => if c = ',' then [] :: p :: ps else (c :: p) :: ps)
    [[]]

/-- The filter of a text, in which empty parts do not count. Without directives errors are shown. -/
def Filter.parse? (text : String) : Option Filter :=
  match (splitAtCommas text.toList).filter (· ≠ []) with
  | [] => some [⟨none, [], false, Level.error.verbosity⟩]
  | parts => parts.mapM Directive.parse?

def Directive.covers (d : Directive) (r : Record) : Bool :=
  !d.spans &&
    (match d.target with
      | none => true
      | some t => t.isPrefixOf r.target.toList) &&
    d.fields.all fun f => f = "message".toList || r.fields.any fun g => g.name.toList = f

/-- How specific a directive is: by target, then by fields. -/
def Directive.rank (d : Directive) : Nat × Nat :=
  (match d.target with
    | none => 0
    | some t => (String.ofList t).utf8ByteSize + 1,
   d.fields.length)

/-- The words that order directives of one rank. -/
def Directive.words (d : Directive) : List (List Char) := d.target.getD [] :: d.fields

/-- Whether the first directive decides before the second. -/
def Directive.precedes (d e : Directive) : Bool :=
  e.rank.1 < d.rank.1 ||
    (e.rank.1 = d.rank.1 &&
      (e.rank.2 < d.rank.2 || (e.rank.2 = d.rank.2 && e.words < d.words)))

/-- The directive that decides among those that cover a record. -/
def Filter.decisive (f : Filter) (r : Record) : Option Directive :=
  (f.filter (·.covers r)).foldl
    (fun best d =>
      match best with
      | none => some d
      | some b => if b.precedes d then some b else some d)
    none

/-- Whether a record is shown. -/
def Filter.enables (f : Filter) (r : Record) : Bool :=
  match f.decisive r with
  | none => false
  | some d => r.level.verbosity ≤ d.verbosity

end MetricAlarm.Log
