import MetricAlarm.Data.Yaml.Token

/-!
# Nodes

A YAML document is a tree of scalars, lists and tables. A node may have a tag, and a number by which
an alias refers to it: the number of names that anchors have used before it. A text holds at most
one document.
-/

namespace MetricAlarm.Data.Yaml

/-- What stands in front of a node. -/
structure Properties where
  anchor : Option Nat
  tag : Option String

def Properties.none : Properties := ⟨.none, .none⟩

inductive Node
  | alias (number : Nat)
  | scalar (p : Properties) (plain : Bool) (text : String)
  | list (p : Properties) (items : List Node)
  | table (p : Properties) (members : List (Node × Node))

/-- A node that is not written. -/
def Node.absent : Node := .scalar .none true ""

/-! ## Reading tokens -/

/-- Tokens that are to be read, and the names that mean something by now. -/
structure Reading where
  tokens : List Token
  /-- The names of anchors with their numbers, the latest first. -/
  anchors : List (String × Nat)
  handles : List (String × String)

abbrev Read := StateT Reading Option

def next : Read (Option Token) := do return (← get).tokens.head?

def drop : Read Unit := modify fun r => { r with tokens := r.tokens.tail }

/-- Whether the next token is one of these. -/
def comes (ts : List Token) : Read Bool := do return (← next).any (ts.contains ·)

/-- The number that an anchor of the name gets. -/
def anchorNumber (name : String) : Read Nat := do
  let r ← get
  let number := r.anchors.length
  set { r with anchors := (name, number) :: r.anchors.filter (·.1 ≠ name) }
  return number

/-- A tag with what its handle stands for. -/
def resolved (t : WrittenTag) : Read String := do
  if t.handle = "" then return t.word
  match (← get).handles.lookup t.handle with
  | some stem => return stem ++ t.word
  | none => failure

/-- An anchor and a tag in any order. -/
def properties : Read Properties := do
  let anchor? : Read (Option String) := do
    match ← next with
    | some (.anchor name) => drop; return some name
    | _ => return none
  let tag? : Read (Option WrittenTag) := do
    match ← next with
    | some (.tag t) => drop; return some t
    | _ => return none
  let before ← anchor?
  let tag ← tag?
  let behind ← if before.isNone ∧ tag.isSome then anchor? else pure none
  let tag ← match tag with
    | some t => some <$> resolved t
    | none => pure none
  match before.or behind with
  | some name => return ⟨some (← anchorNumber name), tag⟩
  | none => return ⟨none, tag⟩

mutual

/-- A node; without `block` it stands in brackets, and with `bare` it may be a list that is not
indented. The number bounds the nesting and the items. -/
def node (block bare : Bool) : Nat → Read Node
  | 0 => failure
  | n + 1 => do
    if let some (.alias name) ← next then
      drop
      match (← get).anchors.lookup name with
      | some number => return .alias number
      | none => failure
    let p ← properties
    match ← next, block, bare with
    | some .entry, _, true => return .list p (← bareItems n)
    | some (.scalar plain text), _, _ => drop; return .scalar p plain text
    | some .openList, _, _ => drop; return .list p (← bracketItems true n)
    | some .openTable, _, _ => drop; return .table p (← bracketMembers true n)
    | some .listStart, true, _ => drop; return .list p (← blockItems n)
    | some .tableStart, true, _ => drop; return .table p (← blockMembers n)
    | _, _, _ => if p.anchor.isSome ∨ p.tag.isSome then return .scalar p true "" else failure

/-- A node unless one of these tokens comes. -/
def nodeUnless (ts : List Token) (block bare : Bool) : Nat → Read Node
  | 0 => failure
  | n + 1 => do if ← comes ts then return .absent else node block bare n

def blockItems : Nat → Read (List Node)
  | 0 => failure
  | n + 1 => do
    match ← next with
    | some .entry =>
      drop
      let x ← nodeUnless [.entry, .blockEnd] true false n
      return x :: (← blockItems n)
    | some .blockEnd => drop; return []
    | _ => failure

def bareItems : Nat → Read (List Node)
  | 0 => failure
  | n + 1 => do
    match ← next with
    | some .entry =>
      drop
      let x ← nodeUnless [.entry, .key, .value, .blockEnd] true false n
      return x :: (← bareItems n)
    | _ => return []

def blockMembers : Nat → Read (List (Node × Node))
  | 0 => failure
  | n + 1 => do
    match ← next with
    | some .key =>
      drop
      let k ← nodeUnless [.key, .value, .blockEnd] true true n
      let v ← if ← comes [.value] then drop; nodeUnless [.key, .value, .blockEnd] true true n
        else pure .absent
      return (k, v) :: (← blockMembers n)
    | some .blockEnd => drop; return []
    | _ => failure

/-- The items of a list in brackets; `first` says that none was read. An item may be a table of one
member. -/
def bracketItems (first : Bool) : Nat → Read (List Node)
  | 0 => failure
  | n + 1 => do
    if ← comes [.closeList] then
      drop
      return []
    if !first then
      if ← comes [.comma] then drop else failure
    match ← next with
    | some .closeList => drop; return []
    | some .key =>
      drop
      let k ← if ← comes [.value, .comma, .closeList] then drop; pure .absent
        else node false false n
      let v ← if ← comes [.value] then drop; nodeUnless [.comma, .closeList] false false n
        else pure .absent
      return .table .none [(k, v)] :: (← bracketItems false n)
    | _ =>
      let x ← node false false n
      return x :: (← bracketItems false n)

/-- The members of a table in brackets; `first` says that none was read. -/
def bracketMembers (first : Bool) : Nat → Read (List (Node × Node))
  | 0 => failure
  | n + 1 => do
    if ← comes [.closeTable] then
      drop
      return []
    if !first then
      if ← comes [.comma] then drop else failure
    match ← next with
    | some .closeTable => drop; return []
    | some .key =>
      drop
      let k ← nodeUnless [.value, .comma, .closeTable] false false n
      let v ← if ← comes [.value] then drop; nodeUnless [.comma, .closeTable] false false n
        else pure .absent
      return (k, v) :: (← bracketMembers false n)
    | _ =>
      let k ← node false false n
      return (k, .absent) :: (← bracketMembers false n)

end

/-! ## Documents -/

/-- The handles that always stand for something. -/
def commonHandles : List (String × String) := [("!", "!"), ("!!", "tag:yaml.org,2002:")]

/-- The directives in front of a document: at most one version, which is 1.1 or 1.2, and each handle
once. The number bounds them. -/
def directives (versioned : Bool) : Nat → Read Unit
  | 0 => failure
  | n + 1 => do
    match ← next with
    | some (.version major minor) =>
      if versioned ∨ major ≠ 1 ∨ (minor ≠ 1 ∧ minor ≠ 2) then failure
      drop
      directives true n
    | some (.handle name stem) =>
      let r ← get
      if (r.handles.lookup name).isSome then failure
      set { r with handles := (name, stem) :: r.handles }
      drop
      directives versioned n
    | _ => modify fun r => { r with handles := r.handles ++ commonHandles }

def isDirective : Token → Bool
  | .version .. | .handle .. => true
  | _ => false

/-- The node of a document, and the marks behind it. The number bounds the nodes. -/
def document (n : Nat) : Read Node := do
  let opens := (← next).any fun t => isDirective t || t = .documentStart
  directives false n
  let root ←
    if opens then
      if ← comes [.documentStart] then drop else failure
      match ← next with
      | none => pure .absent
      | some t =>
        if isDirective t ∨ t = .documentStart ∨ t = .documentEnd then pure .absent
        else node true false n
    else node true false n
  modify fun r => { r with tokens := r.tokens.dropWhile (· = .documentEnd) }
  return root

/-- The document of tokens, if there is one. -/
def ofTokens? (ts : List Token) : Option (Option Node) :=
  if ts = [] then some none
  else
    match (document (3 * ts.length + 3)).run ⟨ts, [], []⟩ with
    | some (root, r) => if r.tokens = [] then some (some root) else none
    | none => none

/-- The document of a text, if there is one. -/
def document? (cs : List Char) : Option (Option Node) := (tokens? cs).bind ofTokens?

end MetricAlarm.Data.Yaml
