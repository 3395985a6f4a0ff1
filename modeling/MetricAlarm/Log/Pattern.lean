import MetricAlarm.Text.Alphanumeric
import MetricAlarm.Text.Blank
import MetricAlarm.Text.DecimalDigit
import MetricAlarm.Text.Hexadecimal

/-!
# Patterns

A directive may ask for a field with a value, and the value may be a pattern: characters and
classes, anchors, groups, alternatives, and signs of repetition. No record has such a value, so all
that matters of a pattern is whether it is well formed. Main statement: `not_isWellFormed_repeated`,
a sign of repetition needs a piece in front of it.

As a directive holds no closing brace, neither counted repetitions nor names in braces occur.
-/

namespace MetricAlarm.Log.Pattern

/-- What flags have set up. -/
structure Mode where
  /-- Blank characters and comments stand between the pieces. -/
  spaced : Bool
  /-- The pattern is of characters, not of octets. -/
  unicode : Bool

/-- Drop blank characters and comments, being in a comment or not. -/
def skipSpaced : Bool → List Char → List Char
  | _, [] => []
  | true, c :: cs => skipSpaced (c != '\n') cs
  | false, c :: cs =>
    if Text.isBlank c then skipSpaced false cs
    else if c = '#' then skipSpaced true cs
    else c :: cs

def Mode.skip (m : Mode) (cs : List Char) : List Char :=
  if m.spaced then skipSpaced false cs else cs

/-! ## Pieces -/

inductive Piece
  | literal (c : Char)
  | charClass
  | anchor

/-- A character by its code point in so many digits. Octets beyond ASCII make up no character. -/
def numbered (m : Mode) (digits found : Nat) (cs : List Char) : Option (Piece × List Char) :=
  match digits, m.skip cs with
  | 0, rest =>
    if m.unicode ∨ found < 0x80 then (Text.charOf? found).map fun c => (.literal c, rest) else none
  | _ + 1, [] => none
  | digits + 1, c :: cs =>
    match Text.hexDigit? c with
    | some d => numbered m digits (16 * found + d) cs
    | none => none

/-- The letters of the general categories. -/
def categories : List Char := ['c', 'l', 'm', 'n', 'p', 's', 'z']

/-- The controls that a letter stands for. -/
def control? : Char → Option Char
  | 'a' => some '\x07'
  | 'f' => some '\x0c'
  | 't' => some '\t'
  | 'n' => some '\n'
  | 'r' => some '\x0d'
  | 'v' => some '\x0b'
  | _ => none

/-- A piece behind a backslash. Boundaries of words are anchors of octets only. -/
def escape (m : Mode) : List Char → Option (Piece × List Char)
  | [] => none
  | c :: cs =>
    if c = 'x' then numbered m 2 0 cs
    else if c = 'u' then numbered m 4 0 cs
    else if c = 'U' then numbered m 8 0 cs
    else if c = 'p' ∨ c = 'P' then
      match m.skip cs with
      | d :: cs => if m.unicode ∧ categories.contains d.toLower then some (.charClass, cs) else none
      | [] => none
    else if ['d', 's', 'w'].contains c then some (.charClass, cs)
    else if ['D', 'S', 'W'].contains c then if m.unicode then some (.charClass, cs) else none
    else if ['A', 'z'].contains c then some (.anchor, cs)
    else if ['b', 'B', '<', '>'].contains c then if m.unicode then none else some (.anchor, cs)
    else
      match control? c with
      | some d => some (.literal d, cs)
      | none => if c.toNat < 0x80 ∧ !c.isAlphanum then some (.literal c, cs) else none

/-! ## Classes in brackets -/

/-- The names that stand in a class between colons. -/
def classNames : List String :=
  ["alnum", "alpha", "ascii", "blank", "cntrl", "digit", "graph", "lower", "print", "punct",
    "space", "upper", "word", "xdigit"]

/-- The rest behind a named class whose bracket was taken. -/
def namedClass? : List Char → Option (List Char)
  | ':' :: cs =>
    let named := if cs.head? = some '^' then cs.tail else cs
    match named.dropWhile (· ≠ ':') with
    | ':' :: ']' :: rest =>
      if classNames.contains (String.ofList (named.takeWhile (· ≠ ':'))) then some rest else none
    | _ => none
  | _ => none

/-- Where in a class the next character is. -/
inductive Place
  | opening
  | negated
  | hyphens
  | members

def member (m : Mode) : List Char → Option (Piece × List Char)
  | [] => none
  | '\\' :: cs => escape m cs
  | c :: cs => some (.literal c, cs)

/-- A member of a class or a range of them. A hyphen in front of the closing bracket or of another
hyphen makes no range. -/
def range (m : Mode) (cs : List Char) : Option (List Char) :=
  match member m cs with
  | none => none
  | some (first, rest) =>
    let rest := m.skip rest
    let ahead := match rest with
      | '-' :: more => m.skip more
      | _ => [']']
    if ahead.head? = some ']' ∨ ahead.head? = some '-' then
      match first with
      | .anchor => none
      | _ => some rest
    else
      match first, member m ahead with
      | .literal a, some (.literal b, rest) => if a ≤ b then some rest else none
      | _, _ => none

/-- The signs that join classes to a new one. -/
def operations : List (List Char) := [['&', '&'], ['-', '-'], ['~', '~']]

/-- The rest behind classes of which `depth + 1` are open. The last number bounds the steps. -/
def classRest (m : Mode) (depth : Nat) (place : Place) : Nat → List Char → Option (List Char)
  | 0, _ => none
  | n + 1, cs =>
    match m.skip cs, place with
    | [], _ => none
    | '^' :: rest, .opening => if m.unicode then classRest m depth .negated n rest else none
    | '-' :: rest, .opening | '-' :: rest, .negated | '-' :: rest, .hyphens =>
      classRest m depth .hyphens n rest
    | ']' :: rest, .opening | ']' :: rest, .negated => classRest m depth .members n rest
    | '[' :: rest, _ =>
      match namedClass? rest with
      | some rest => classRest m depth .members n rest
      | none => classRest m (depth + 1) .opening n rest
    | ']' :: rest, _ =>
      match depth with
      | 0 => some rest
      | depth + 1 => classRest m depth .members n rest
    | cs, _ =>
      if operations.contains (cs.take 2) then classRest m depth .members n (cs.drop 2)
      else
        match range m cs with
        | some rest => classRest m depth .members n rest
        | none => none

/-! ## Groups -/

def flagLetters : List Char := ['i', 'm', 's', 'U', 'u', 'R', 'x']

def Mode.set (m : Mode) (flag : Char) (on : Bool) : Mode :=
  if flag = 'x' then { m with spaced := on }
  else if flag = 'u' then { m with unicode := on }
  else m

/-- Flags up to the sign behind them, none of them twice; those behind a hyphen are switched off.
`seen` holds the signs so far, the last in front. -/
def flags (m : Mode) (seen : List Char) : List Char → Option (Mode × List Char × List Char)
  | [] => none
  | c :: cs =>
    if c = ':' ∨ c = ')' then if seen.head? = some '-' then none else some (m, seen, c :: cs)
    else if seen.contains c then none
    else if c = '-' then flags m (c :: seen) cs
    else if flagLetters.contains c then flags (m.set c !(seen.contains '-')) (c :: seen) cs
    else none

/-- Whether a group may have the name. -/
def isGroupName : List Char → Bool
  | [] => false
  | c :: cs =>
    (c = '_' || (Text.isAlphanumeric c && !Text.isDecimalDigit c)) &&
      cs.all fun d => ['_', '.', '[', ']'].contains d || Text.isAlphanumeric d

/-- What an opening parenthesis begins. -/
inductive Opening
  | group (name : Option (List Char)) (m : Mode)
  | directive (m : Mode)

/-- The opening of a group behind its parenthesis. -/
def opening (m : Mode) (cs : List Char) : Option (Opening × List Char) :=
  let named (cs : List Char) : Option (Opening × List Char) :=
    let name := cs.takeWhile (· ≠ '>')
    match cs.drop name.length with
    | _ :: rest => if isGroupName name then some (.group (some name) m, rest) else none
    | [] => none
  match m.skip cs with
  | '?' :: 'P' :: '<' :: rest => named rest
  | '?' :: '<' :: rest => named rest
  | '?' :: rest =>
    match flags m [] rest with
    | some (m, seen, ')' :: rest) => if seen = [] then none else some (.directive m, rest)
    | some (m, _, _ :: rest) => some (.group none m, rest)
    | _ => none
  | rest => some (.group none m, rest)

/-! ## Patterns -/

/-- Whether the rest of a pattern is well formed. `outer` holds the modes around the open groups,
`names` the names of groups so far, and `repeatable` says whether there is a piece in front. The
last number bounds the pieces. -/
def isWellFormedFrom (m : Mode) (outer : List Mode) (names : List (List Char))
    (repeatable : Bool) : Nat → List Char → Bool
  | 0, _ => false
  | n + 1, cs =>
    match m.skip cs with
    | [] => outer.isEmpty
    | '(' :: rest =>
      match opening m rest with
      | none => false
      | some (.directive m, rest) => isWellFormedFrom m outer names false n rest
      | some (.group none inner, rest) => isWellFormedFrom inner (m :: outer) names false n rest
      | some (.group (some name) inner, rest) =>
        !names.contains name && isWellFormedFrom inner (m :: outer) (name :: names) false n rest
    | ')' :: rest =>
      match outer with
      | [] => false
      | m :: outer => isWellFormedFrom m outer names true n rest
    | '|' :: rest => isWellFormedFrom m outer names false n rest
    | '[' :: rest =>
      match classRest m 0 .opening (rest.length + 1) rest with
      | none => false
      | some rest => isWellFormedFrom m outer names true n rest
    | '\\' :: rest =>
      match escape m rest with
      | none => false
      | some (_, rest) => isWellFormedFrom m outer names true n rest
    | c :: rest =>
      if ['?', '*', '+'].contains c then
        repeatable &&
          isWellFormedFrom m outer names true n (if rest.head? = some '?' then rest.tail else rest)
      else if c = '\x7b' then false
      else if c = '.' ∧ !m.unicode then false
      else isWellFormedFrom m outer names true n rest

/-- Whether a text is a pattern. -/
def isWellFormed (cs : List Char) : Bool :=
  isWellFormedFrom ⟨false, true⟩ [] [] false (cs.length + 1) cs

theorem not_isWellFormed_repeated (c : Char) (cs : List Char) (h : c ∈ ['?', '*', '+']) :
    isWellFormed (c :: cs) = false := by
  simp only [List.mem_cons, List.not_mem_nil, or_false] at h
  rcases h with rfl | rfl | rfl <;> simp [isWellFormed, isWellFormedFrom, Mode.skip]

end MetricAlarm.Log.Pattern
