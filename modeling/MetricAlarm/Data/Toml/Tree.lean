import MetricAlarm.Data.Value

/-!
# Trees of tables

A TOML document builds a tree of tables. Tables come about by headers, on the way to a header, or by
names with points, and how a table came about decides whether it may be taken up again: values are
given once, a header stands once, and names with points add only to tables that such names made.
-/

namespace MetricAlarm.Data.Toml

/-- How a table came about: by a name with points, on the way to a header, or by its header. -/
inductive Origin
  | dotted
  | implied
  | headed
  deriving DecidableEq

inductive Node
  | value (v : Value)
  | table (origin : Origin) (entries : List (String × Node))
  /-- Tables under one header, the last apart and those before it backwards. -/
  | tables (before : List (List (String × Node))) (last : List (String × Node))

abbrev Tree := List (String × Node)

/-- Change what stands under a name, at the end if the name is new. -/
def alter? (change : Option Node → Option Node) (name : String) : Tree → Option Tree
  | [] => (change none).map fun x => [(name, x)]
  | e :: es =>
    if e.1 = name then (change (some e.2)).map fun x => (name, x) :: es
    else (alter? change name es).map (e :: ·)

/-- The table to go on in, its origin, and how it is put back. A missing table is made. -/
def enter? (byName : Bool) : Option Node → Option (Origin × Tree × (Tree → Node))
  | none =>
    let origin := if byName then .dotted else .implied
    some (origin, [], .table origin)
  | some (.table origin es) =>
    if byName ∧ origin = .headed then none else some (origin, es, .table origin)
  | some (.tables before last) => some (.headed, last, .tables before)
  | some (.value _) => none

/-- Change the table at a path, knowing its origin. -/
def inside? (byName : Bool) (change : Origin → Tree → Option Tree) (origin : Origin) :
    List String → Tree → Option Tree
  | [], es => change origin es
  | name :: path, es =>
    alter?
      (fun found =>
        match enter? byName found with
        | none => none
        | some (origin, inner, close) => (inside? byName change origin path inner).map close)
      name es

/-- Give a name its first value. -/
def addValue? (name : String) (v : Value) : Tree → Option Tree :=
  alter? (fun found => if found.isNone then some (.value v) else none) name

/-- Give a value to a name in a table, reached from it by the parts of the name before the last. -/
def define? (path : List String) (name : String) (v : Value) : Tree → Option Tree :=
  inside? true
    (fun origin es => if path = [] ∨ origin = .dotted then addValue? name v es else none)
    .headed path

/-- What a header makes of what stands under its name. -/
def headed? (repeated : Bool) : Option Node → Option Node
  | none => some (if repeated then .tables [] [] else .table .headed [])
  | some (.table .implied es) => if repeated then none else some (.table .headed es)
  | some (.tables before last) => if repeated then some (.tables (last :: before) []) else none
  | some _ => none

/-- Open the table of a header. -/
def openTable? (repeated : Bool) (path : List String) (name : String) : Tree → Option Tree :=
  inside? false (fun _ es => alter? (headed? repeated) name es) .headed path

/-! ## Values -/

mutual

def Node.toValue : Node → Value
  | .value v => v
  | .table _ es => .table (entryValues es)
  | .tables before last => .list ((tableValues before).reverse ++ [.table (entryValues last)])

def entryValues : List (String × Node) → List Entry
  | [] => []
  | (name, x) :: es => (name, x.toValue) :: entryValues es

def tableValues : List (List (String × Node)) → List Value
  | [] => []
  | es :: ts => .table (entryValues es) :: tableValues ts

end

end MetricAlarm.Data.Toml
