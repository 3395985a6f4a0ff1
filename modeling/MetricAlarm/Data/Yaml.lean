import MetricAlarm.Data.Yaml.Node
import MetricAlarm.Data.Yaml.Scalar

/-!
# YAML settings

The table of a YAML text: what the nodes of its document stand for. An alias stands for the node
with its number, and of several nodes with one number for the last of the document. Keys are
scalars, and count as they are written. Lists and tables nest at most 128 deep, and aliases are
followed no more than a hundred times for every node. A text without a document is an empty table,
and so is a document in which nothing is written.
-/

namespace MetricAlarm.Data.Yaml

/-! ## Aliases -/

def ownNumber (p : Properties) (x : Node) : List (Nat × Node) := (p.anchor.map (·, x)).toList

mutual

/-- The nodes with numbers, each before those inside it. -/
def Node.numbered (x : Node) : List (Nat × Node) :=
  match x with
  | .alias _ => []
  | .scalar p plain text => ownNumber p (.scalar p plain text)
  | .list p items => ownNumber p (.list p items) ++ numberedItems items
  | .table p members => ownNumber p (.table p members) ++ numberedMembers members

def numberedItems : List Node → List (Nat × Node)
  | [] => []
  | x :: xs => x.numbered ++ numberedItems xs

def numberedMembers : List (Node × Node) → List (Nat × Node)
  | [] => []
  | (k, v) :: ms => k.numbered ++ v.numbered ++ numberedMembers ms

end

mutual

/-- How many signs a node takes: lists and tables have one at either end. -/
def Node.size : Node → Nat
  | .alias _ => 1
  | .scalar .. => 1
  | .list _ items => 2 + itemsSize items
  | .table _ members => 2 + membersSize members

def itemsSize : List Node → Nat
  | [] => 0
  | x :: xs => x.size + itemsSize xs

def membersSize : List (Node × Node) → Nat
  | [] => 0
  | (k, v) :: ms => k.size + v.size + membersSize ms

end

/-- Following aliases, with the number of those that may still be followed. -/
abbrev Follow := StateT Nat Option

/-- The node that an alias stands for, or the node itself. -/
def follow (numbered : List (Nat × Node)) : Node → Follow Node
  | .alias number => do
    match ← get with
    | 0 => failure
    | n + 1 =>
      set n
      match numbered.lookup number with
      | some x => return x
      | none => failure
  | x => return x

/-! ## Values -/

/-- The text of a key. -/
def keyText (numbered : List (Nat × Node)) (x : Node) : Follow String := do
  match ← follow numbered x with
  | .scalar _ _ text => return text
  | _ => failure

def ofOption {α : Type} : Option α → Follow α
  | some x => return x
  | none => failure

/-- What a node stands for; the number bounds the nesting. -/
def valueOf (numbered : List (Nat × Node)) : Nat → Node → Follow Value
  | 0, x => do
    match ← follow numbered x with
    | .scalar p plain text => ofOption (scalarValue? p.tag plain text)
    | _ => failure
  | depth + 1, x => do
    match ← follow numbered x with
    | .scalar p plain text => ofOption (scalarValue? p.tag plain text)
    | .list p items => return named p.tag (.list (← items.mapM (valueOf numbered depth)))
    | .table p members =>
      let es ← members.mapM fun m => do
        return (← keyText numbered m.1, ← valueOf numbered depth m.2)
      return named p.tag (.table (entriesOf es))
    | .alias _ => failure

/-- The entries of the table that a document is. -/
def entries? (root : Node) : Option (List Entry) :=
  match root with
  | .table _ members =>
    let plainRoot := Node.table .none members
    match (valueOf root.numbered.reverse 128 plainRoot).run (100 * root.size) with
    | some (.table es, _) => some es
    | _ => none
  | .scalar _ true "" => some []
  | _ => none

/-- The table of a whole text. -/
def parse? (text : String) : Option (List Entry) :=
  match document? text.toList with
  | none => none
  | some none => some []
  | some (some root) => entries? root

end MetricAlarm.Data.Yaml
