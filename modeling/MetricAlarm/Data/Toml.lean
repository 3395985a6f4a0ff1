import MetricAlarm.Data.Enclosed
import MetricAlarm.Data.Toml.Number
import MetricAlarm.Data.Toml.Text
import MetricAlarm.Data.Toml.Time
import MetricAlarm.Data.Toml.Tree

/-!
# TOML settings

A reader of TOML documents: lines `name = value`, headers of tables, and comments. No setting is a
date or a time, and both are read as tables without entries. Lists and tables in brackets nest less
than eighty deep.
-/

namespace MetricAlarm.Data.Toml

/-! ## Values -/

/-- The first reader that reads something. -/
def firstOf {α : Type} : List (Option α) → Option α
  | [] => none
  | x :: xs => x.or (firstOf xs)

/-- A value without brackets. -/
def simple? (cs : List Char) : Option (Value × List Char) :=
  match cs with
  | 't' :: 'r' :: 'u' :: 'e' :: rest => some (.bool true, rest)
  | 'f' :: 'a' :: 'l' :: 's' :: 'e' :: rest => some (.bool false, rest)
  | cs =>
    firstOf [(text? cs).map fun (s, rest) => (.text s, rest),
      (moment? cs).map fun rest => (.table [], rest), decimal? cs, integer? cs]

/-- A `name = value`. -/
def member? (value : List Char → Option (Value × List Char)) (cs : List Char) :
    Option ((List String × Value) × List Char) :=
  match path? cs with
  | none => none
  | some (path, rest) =>
    match rest with
    | '=' :: rest => (value (skipSpace rest)).map fun (v, rest) => ((path, v), rest)
    | _ => none

/-- The tree with one more member. -/
def addMember? (tree : Tree) (m : List String × Value) : Option Tree :=
  match m.1.getLast? with
  | none => none
  | some name => define? m.1.dropLast name m.2 tree

/-- A value in front. `limit` bounds the items of a list, and the number the nesting. -/
def value? (limit : Nat) : Nat → List Char → Option (Value × List Char)
  | depth + 1, '[' :: rest =>
    (enclosed skipLines true (value? limit depth) ']' limit rest).map fun (xs, rest) =>
      (.list xs, rest)
  | depth + 1, '\x7b' :: rest =>
    match enclosed skipSpace false (member? (value? limit depth)) '\x7d' limit rest with
    | none => none
    | some (members, rest) =>
      (members.foldlM addMember? []).map fun tree => (.table (entryValues tree), rest)
  | _, cs => simple? cs

/-! ## Documents -/

/-- A header behind its opening bracket: whether it is that of one of several tables, its name, and
the rest behind its line. -/
def header? (cs : List Char) : Option (Bool × List String × List Char) :=
  let (repeated, cs) := match cs with
    | '[' :: cs => (true, cs)
    | cs => (false, cs)
  match path? cs, repeated with
  | some (path, ']' :: ']' :: rest), true => (endLine? rest).map (true, path, ·)
  | some (path, ']' :: rest), false => (endLine? rest).map (false, path, ·)
  | _, _ => none

/-- The tree of a document from some line on. `table` is the name of the table that its members go
to. The number bounds the lines. -/
def treeFrom? (tree : Tree) (table : List String) : Nat → List Char → Option Tree
  | 0, _ => none
  | n + 1, cs =>
    match skipLines cs with
    | [] => some tree
    | '[' :: rest =>
      match header? rest with
      | none => none
      | some (repeated, path, rest) =>
        match path.getLast? with
        | none => none
        | some name =>
          match openTable? repeated path.dropLast name tree with
          | none => none
          | some tree => treeFrom? tree path n rest
    | cs =>
      match member? (value? cs.length 79) cs with
      | none => none
      | some (m, rest) =>
        match endLine? rest, inside? false (fun _ es => addMember? es m) .headed table tree with
        | some rest, some tree => treeFrom? tree table n rest
        | _, _ => none

/-- The table of a whole text, before which a mark of the byte order may stand. -/
def parse? (text : String) : Option (List Entry) :=
  let cs := match text.toList with
    | '\ufeff' :: cs => cs
    | cs => cs
  (treeFrom? [] [] (cs.length + 1) cs).map entryValues

end MetricAlarm.Data.Toml
