import MetricAlarm.Data.Yaml.Spot

/-!
# Texts in blocks

A bar or a greater-than sign opens a text that stands indented on the lines below. Behind a bar the
line breaks stay; behind the other sign a single one between two lines that begin with a word is a
space. Signs behind the opening one tell what becomes of the line breaks at the end, and how deep
the text is indented if its first line does not show it.
-/

namespace MetricAlarm.Data.Yaml

/-- What becomes of the line breaks at the end of a text. -/
inductive Chomping
  | strip
  | clip
  | keep
  deriving DecidableEq

structure BlockHeader where
  chomping : Chomping
  /-- How much deeper than its surroundings the text is indented. -/
  increment : Option Nat

def chomping? (c : Char) : Option Chomping :=
  if c = '+' then some .keep else if c = '-' then some .strip else none

/-- The header of a text behind its opening sign, its two signs in any order, and the rest. -/
def blockHeader? (ss : List Spot) : Option (BlockHeader × List Spot) :=
  let chomped (ss : List Spot) : Option Chomping × List Spot :=
    match ss with
    | [] => (none, [])
    | s :: rest =>
      match chomping? s.char with
      | some c => (some c, rest)
      | none => (none, s :: rest)
  let incremented (ss : List Spot) : Option Nat × List Spot :=
    match ss with
    | [] => (none, [])
    | s :: rest => if s.char.isDigit then (some (s.char.toNat - 48), rest) else (none, s :: rest)
  let (before, ss) := chomped ss
  let (increment, ss) := incremented ss
  let (behind, ss) := if before.isNone ∧ increment.isSome then chomped ss else (none, ss)
  if increment = some 0 then none
  else some (⟨(before.or behind).getD .clip, increment⟩, ss)

/-- Line breaks and indentation in front, without a bound or up to one: the breaks, the deepest
column met, and the rest. No tab may stand in the indentation. -/
def blockGap? (bound : Option Nat) : List Spot → Option (List Char × Nat × List Spot)
  | [] => some ([], 0, [])
  | s :: ss =>
    let inside := bound.all (s.column < ·)
    if s.char = ' ' ∧ inside then blockGap? bound ss
    else if s.char = '\t' ∧ inside then none
    else if isBreak s.char then
      (blockGap? bound ss).map fun (breaks, deepest, rest) =>
        (s.char :: breaks, max s.column deepest, rest)
    else some ([], s.column, s :: ss)

/-- What the reading of a text in a block has come to. -/
structure BlockText where
  /-- The text so far. -/
  read : List Char
  /-- The break behind its last line. -/
  lastBreak : List Char
  /-- The breaks of blank lines behind that one. -/
  blankLines : List Char
  /-- The last line begins with a blank. -/
  indented : Bool

/-- What stands between the text so far and the next line, which begins with a blank or not. -/
def BlockText.joint (t : BlockText) (literal indented : Bool) : List Char :=
  if !literal ∧ t.lastBreak = ['\n'] ∧ !t.indented ∧ !indented then
    if t.blankLines = [] then [' '] else t.blankLines
  else t.lastBreak ++ t.blankLines

/-- The lines from some column on. The number bounds them. -/
def blockLines? (literal : Bool) (column : Nat) (t : BlockText) :
    Nat → List Spot → Option (BlockText × List Spot)
  | 0, _ => none
  | _, [] => some (t, [])
  | n + 1, s :: ss =>
    if s.column ≠ column then some (t, s :: ss)
    else
      let line := (s :: ss).takeWhile (!isBreak ·.char)
      let rest := (s :: ss).drop line.length
      let read := t.read ++ t.joint literal (isBlank s.char) ++ line.map (·.char)
      match blockGap? (some column) rest.tail with
      | none => none
      | some (breaks, _, more) =>
        let lastBreak := (rest.head?.map (·.char)).toList
        blockLines? literal column ⟨read, lastBreak, breaks, isBlank s.char⟩ n more

/-- A text behind its opening sign, inside surroundings of which `indent` columns belong to the
indentation. -/
def block? (literal : Bool) (indent : Nat) (ss : List Spot) : Option (List Char × List Spot) := do
  let (header, rest) ← blockHeader? ss
  let rest ← endLine? rest
  let bound := header.increment.map (indent - 1 + ·)
  let (breaks, deepest, rest) ← blockGap? bound rest
  let column := bound.getD (max 1 (max indent deepest))
  let (t, rest) ← blockLines? literal column ⟨[], [], breaks, false⟩ (rest.length + 1) rest
  let ending := match header.chomping with
    | .strip => []
    | .clip => t.lastBreak
    | .keep => t.lastBreak ++ t.blankLines
  some (t.read ++ ending, rest)

end MetricAlarm.Data.Yaml
