import MetricAlarm.Data.Yaml.Block
import MetricAlarm.Data.Yaml.Flowing
import MetricAlarm.Data.Yaml.Tag
import MetricAlarm.Text.DecimalDigit

/-!
# Tokens

A YAML text as tokens. Indentation opens and closes blocks, and a colon makes a key of what stands
in front of it on its line, so that the token of a key and that of its block come to stand before
what was read already.
-/

namespace MetricAlarm.Data.Yaml

inductive Token
  | version (major minor : Nat)
  /-- What a handle of tags stands for. -/
  | handle (name stem : String)
  | documentStart
  | documentEnd
  | listStart
  | tableStart
  | blockEnd
  | openList
  | closeList
  | openTable
  | closeTable
  /-- A hyphen in front of an item. -/
  | entry
  | comma
  | key
  | value
  | alias (name : String)
  | anchor (name : String)
  | tag (t : WrittenTag)
  | scalar (plain : Bool) (text : String)
  deriving DecidableEq

/-- A place where a key may have begun, to be known when a colon follows. -/
structure PendingKey where
  /-- How many tokens there were in front of it. -/
  tokens : Nat
  spot : Spot
  /-- Nothing but a key can stand there. -/
  required : Bool

/-- The tokens so far and what the next one depends on. -/
structure Layout where
  /-- The columns of the open blocks, the innermost first. -/
  blocks : List Nat
  /-- The pending keys inside the open brackets, the innermost first, and the one outside. -/
  pending : List (Option PendingKey)
  /-- A key may begin here. -/
  keyAllowed : Bool
  /-- The tokens so far, backwards. -/
  tokens : List Token

namespace Layout

def start : Layout := ⟨[], [none], true, []⟩

def inBrackets (l : Layout) : Bool := 1 < l.pending.length

/-- The columns that belong to the indentation of a text inside the innermost block. -/
def indent (l : Layout) : Nat :=
  match l.blocks with
  | [] => 0
  | b :: _ => b + 1

def push (l : Layout) (t : Token) : Layout := { l with tokens := t :: l.tokens }

/-- Insert a token behind so many tokens from the beginning. -/
def insert (l : Layout) (count : Nat) (t : Token) : Layout :=
  let later := l.tokens.length - count
  { l with tokens := l.tokens.take later ++ t :: l.tokens.drop later }

/-! ## Keys -/

/-- Forget the keys that can no longer come about: a key and its colon are on one line and not far
apart. -/
def dropStale? (l : Layout) (s : Spot) : Option Layout :=
  let keep (p : Option PendingKey) : Option (Option PendingKey) :=
    match p with
    | none => some none
    | some k =>
      if k.spot.line < s.line ∨ k.spot.place + 1024 < s.place then
        if k.required then none else some none
      else some (some k)
  (l.pending.mapM keep).map fun pending => { l with pending := pending }

/-- Forget the innermost pending key. -/
def dropKey? (l : Layout) : Option Layout :=
  match l.pending with
  | some k :: pending => if k.required then none else some { l with pending := none :: pending }
  | _ => some l

/-- A key may begin here. -/
def saveKey? (l : Layout) (s : Spot) : Option Layout :=
  if l.keyAllowed then
    l.dropKey?.map fun l =>
      let required := !l.inBrackets && l.blocks.head? = some s.column
      { l with pending := some ⟨l.tokens.length, s, required⟩ :: l.pending.tail }
  else some l

def allowKey (l : Layout) (allowed : Bool) : Layout := { l with keyAllowed := allowed }

/-! ## Blocks -/

/-- Close the blocks deeper than a column, or all of them. -/
def close (l : Layout) (column : Option Nat) : Layout :=
  if l.inBrackets then l
  else
    let isDeeper (b : Nat) : Bool := column.all (· < b)
    let ends := l.blocks.takeWhile isDeeper
    { l with
      blocks := l.blocks.dropWhile isDeeper
      tokens := ends.map (fun _ => .blockEnd) ++ l.tokens }

/-- Open a block at a column unless there is one. Its token stands behind so many tokens. -/
def openBlock (l : Layout) (column count : Nat) (t : Token) : Layout :=
  if l.inBrackets ∨ l.blocks.head?.any (column ≤ ·) then l
  else { l.insert count t with blocks := column :: l.blocks }

/-- Open a block at the end of the tokens, where one may begin. -/
def openBlockHere? (l : Layout) (s : Spot) (t : Token) : Option Layout :=
  if l.inBrackets then some l
  else if l.keyAllowed then some (l.openBlock s.column l.tokens.length t)
  else none

/-! ## Signs -/

/-- A mark that stands outside of all blocks. -/
def mark? (l : Layout) : Option Layout := ((l.close none).dropKey?).map (·.allowKey false)

def openBracket? (l : Layout) (s : Spot) (t : Token) : Option Layout :=
  (l.saveKey? s).map fun l => { l with pending := none :: l.pending, keyAllowed := true }.push t

def closeBracket? (l : Layout) (t : Token) : Option Layout :=
  l.dropKey?.map fun l =>
    let l := if l.inBrackets then { l with pending := l.pending.tail } else l
    (l.allowKey false).push t

def comma? (l : Layout) : Option Layout := l.dropKey?.map fun l => (l.allowKey true).push .comma

def entry? (l : Layout) (s : Spot) : Option Layout := do
  let l ← l.openBlockHere? s .listStart
  let l ← l.dropKey?
  some ((l.allowKey true).push .entry)

def key? (l : Layout) (s : Spot) : Option Layout := do
  let l ← l.openBlockHere? s .tableStart
  let l ← l.dropKey?
  some ((l.allowKey !l.inBrackets).push .key)

/-- A colon makes a key of the pending one, or gives a value to a key with a sign of its own. -/
def value? (l : Layout) (s : Spot) : Option Layout :=
  match l.pending with
  | some k :: pending =>
    let l := (l.insert k.tokens .key).openBlock k.spot.column k.tokens .tableStart
    some ({ l with pending := none :: pending, keyAllowed := false }.push .value)
  | _ => (l.openBlockHere? s .tableStart).map fun l => (l.allowKey !l.inBrackets).push .value

/-- A token that a key may begin with and that ends it. -/
def item? (l : Layout) (s : Spot) (t : Token) : Option Layout :=
  (l.saveKey? s).map fun l => (l.allowKey false).push t

end Layout

/-! ## Between tokens -/

/-- The rest behind blanks, comments and line breaks, in a comment or not, and whether a key may
begin there. A tab does not stand where a key may begin in a block. A mark of the byte order may
begin the text. -/
def skip (inBrackets : Bool) : Bool → Bool → List Spot → Bool × List Spot
  | allowed, _, [] => (allowed, [])
  | allowed, inComment, s :: ss =>
    if isBreak s.char then skip inBrackets (allowed || !inBrackets) false ss
    else if inComment then skip inBrackets allowed true ss
    else if s.char = ' ' ∨ (s.char = '\t' ∧ (inBrackets ∨ !allowed)) then
      skip inBrackets allowed false ss
    else if s.char = '#' then skip inBrackets allowed true ss
    else if s.char = '\ufeff' ∧ s.place = 0 then skip inBrackets allowed false ss
    else (allowed, s :: ss)

/-! ## Directives -/

/-- A number of at most nine digits. -/
def versionNumber? (ss : List Spot) : Option (Nat × List Spot) :=
  let ds := ss.takeWhile (·.char.isDigit)
  if 9 < ds.length then none
  else (Text.natural? (ds.map (·.char))).map (·, ss.drop ds.length)

def versionDirective? (ss : List Spot) : Option (Token × List Spot) := do
  let (major, rest) ← versionNumber? (ss.dropWhile (isBlank ·.char))
  if !startsWith ['.'] rest then none
  let (minor, rest) ← versionNumber? rest.tail
  some (.version major minor, rest)

def handleDirective? (ss : List Spot) : Option (Token × List Spot) := do
  let (handle, rest) ← tagHandle? (ss.dropWhile (isBlank ·.char))
  if handle.length ≠ 1 ∧ handle.getLast? ≠ some '!' then none
  let stem := rest.dropWhile (isBlank ·.char)
  if stem.length = rest.length then none
  let (word, rest) ← tagWord? true stem
  if word = [] ∨ !endsWord rest then none
  some (.handle (String.ofList handle) (String.ofList word), rest)

/-- A directive behind its percent sign. -/
def directive? (ss : List Spot) : Option (Token × List Spot) := do
  let name := (ss.takeWhile (isWordChar ·.char)).map (·.char)
  let rest := ss.drop name.length
  if !endsWord rest then none
  let (t, rest) ←
    if name = "YAML".toList then versionDirective? rest
    else if name = "TAG".toList then handleDirective? rest
    else none
  (endLine? rest).map (t, ·)

/-! ## Tokens of a text -/

/-- The name of an anchor or alias behind its sign. -/
def anchorName? (ss : List Spot) : Option (String × List Spot) :=
  let name := (ss.takeWhile (isWordChar ·.char)).map (·.char)
  let rest := ss.drop name.length
  if name ≠ [] ∧ (endsWord rest ∨
      (rest.head?.any fun s => ['?', ':', ',', ']', '\x7d', '%', '@', '\x60'].contains s.char)) then
    some (String.ofList name, rest)
  else none

/-- Signs that begin no plain text, or only in front of a word. -/
def indicators : List Char :=
  ['-', '?', ':', ',', '[', ']', '\x7b', '\x7d', '#', '&', '*', '!', '|', '>', '\'', '"', '%', '@',
    '\x60']

/-- Whether a plain text begins here. -/
def beginsPlain (inBrackets : Bool) (c : Char) (rest : List Spot) : Bool :=
  !(indicators.contains c || isBlank c) ||
    (c = '-' && !(rest.head?.any (isBlank ·.char))) ||
    (!inBrackets && (c = '?' || c = ':') && !endsWord rest)

/-- The tokens of a text in quotes, of a plain text, and of one in a block. -/
def scalar? (l : Layout) (s : Spot) (rest : List Spot) : Option (Layout × List Spot) :=
  if (s.char = '|' ∨ s.char = '>') ∧ !l.inBrackets then do
    let l ← l.dropKey?
    let (text, rest) ← block? (s.char = '|') l.indent rest
    some ((l.allowKey true).push (.scalar false (String.ofList text)), rest)
  else if s.char = '\'' ∨ s.char = '"' then do
    let (text, rest) ← quoted? (s.char = '\'') rest
    (l.item? s (.scalar false (String.ofList text))).map (·, rest)
  else if beginsPlain l.inBrackets s.char rest then do
    let (text, broken, rest) ← plain? l.inBrackets l.indent (s :: rest)
    let l ← l.item? s (.scalar true (String.ofList text))
    some (if broken then l.allowKey true else l, rest)
  else none

/-- The token that begins with a character, and the rest. -/
def token? (l : Layout) (s : Spot) (rest : List Spot) : Option (Layout × List Spot) :=
  let mayFollow : Bool := l.inBrackets || endsWord rest
  if s.column = 0 ∧ s.char = '%' then do
    let l ← l.mark?
    let (t, rest) ← directive? rest
    some (l.push t, rest)
  else if isDocumentMark '-' (s :: rest) then l.mark?.map (·.push .documentStart, rest.drop 2)
  else if isDocumentMark '.' (s :: rest) then l.mark?.map (·.push .documentEnd, rest.drop 2)
  else if s.char = '[' then (l.openBracket? s .openList).map (·, rest)
  else if s.char = '\x7b' then (l.openBracket? s .openTable).map (·, rest)
  else if s.char = ']' then (l.closeBracket? .closeList).map (·, rest)
  else if s.char = '\x7d' then (l.closeBracket? .closeTable).map (·, rest)
  else if s.char = ',' then l.comma?.map (·, rest)
  else if s.char = '-' ∧ endsWord rest then (l.entry? s).map (·, rest)
  else if s.char = '?' ∧ mayFollow then (l.key? s).map (·, rest)
  else if s.char = ':' ∧ mayFollow then (l.value? s).map (·, rest)
  else if s.char = '*' then do
    let (name, rest) ← anchorName? rest
    (l.item? s (.alias name)).map (·, rest)
  else if s.char = '&' then do
    let (name, rest) ← anchorName? rest
    (l.item? s (.anchor name)).map (·, rest)
  else if s.char = '!' then do
    let (t, rest) ← tag? l.inBrackets (s :: rest)
    (l.item? s (.tag t)).map (·, rest)
  else scalar? l s rest

/-- The tokens from some place on. The number bounds them. -/
def tokensFrom? (l : Layout) : Nat → List Spot → Option (List Token)
  | 0, _ => none
  | n + 1, ss =>
    match skip l.inBrackets l.keyAllowed false ss with
    | (_, []) => l.mark?.map (·.tokens.reverse)
    | (allowed, s :: rest) => do
      let l ← (l.allowKey allowed).dropStale? s
      let (l, rest) ← token? (l.close (some s.column)) s rest
      tokensFrom? l n rest

/-- The tokens of a text. -/
def tokens? (cs : List Char) : Option (List Token) := do
  let ss ← spots? cs
  tokensFrom? .start (ss.length + 1) ss

end MetricAlarm.Data.Yaml
