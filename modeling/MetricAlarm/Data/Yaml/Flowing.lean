import MetricAlarm.Data.Yaml.Spot
import MetricAlarm.Text.Hexadecimal

/-!
# Texts that flow over lines

Plain texts and texts in quotes may go on over several lines. Blanks around a line break do not
count; one line break is a space, and of several all but the first stay. Readers return the rest.
-/

namespace MetricAlarm.Data.Yaml

/-- What stands between two words of a text. -/
structure Gap where
  /-- The blanks in front of the first line break. -/
  blanks : List Char
  breaks : List Char

/-- Line breaks as they count in a text. -/
def folded : List Char → List Char
  | ['\n'] => [' ']
  | '\n' :: more => more
  | breaks => breaks

def Gap.text (g : Gap) : List Char := if g.breaks = [] then g.blanks else folded g.breaks

/-- The gap in front, where a line break was met before or not. No tab may stand in the columns
below `indent` of a new line. -/
def gap? (indent : Nat) : Bool → List Spot → Option (Gap × List Spot)
  | _, [] => some (⟨[], []⟩, [])
  | broken, s :: ss =>
    if isBreak s.char then
      (gap? indent true ss).map fun (g, rest) => (⟨[], s.char :: g.breaks⟩, rest)
    else if !isBlank s.char then some (⟨[], []⟩, s :: ss)
    else if broken then
      if s.char = '\t' ∧ s.column < indent then none else gap? indent true ss
    else (gap? indent false ss).map fun (g, rest) => ({ g with blanks := s.char :: g.blanks }, rest)

/-! ## Plain texts -/

/-- Signs that end a plain text in brackets. -/
def brackets : List Char := [',', '[', ']', '\x7b', '\x7d']

/-- Whether a colon in brackets stands where it can neither end a key nor belong to a text. -/
def isStrayColon (c : Char) (rest : List Spot) : Bool :=
  c = ':' &&
    match rest with
    | [] => false
    | s :: _ => s.char = '?' || brackets.contains s.char

/-- The word in front. -/
def plainWord? (inBrackets : Bool) : List Spot → Option (List Char × List Spot)
  | [] => some ([], [])
  | s :: ss =>
    if isBlank s.char ∨ isBreak s.char ∨ (s.char = ':' ∧ endsWord ss) then some ([], s :: ss)
    else if inBrackets ∧ isStrayColon s.char ss then none
    else if inBrackets ∧ brackets.contains s.char then some ([], s :: ss)
    else (plainWord? inBrackets ss).map fun (word, rest) => (s.char :: word, rest)

/-- Whether a plain text ends here, between two words. -/
def endsPlain (inBrackets : Bool) (indent : Nat) (ss : List Spot) : Bool :=
  match ss with
  | [] => true
  | s :: _ => s.char = '#' || atDocumentMark ss || (!inBrackets && s.column < indent)

/-- What follows a word of a plain text, and whether the text ends behind a line break. The number
bounds the words. -/
def plainMore? (inBrackets : Bool) (indent : Nat) :
    Nat → List Spot → Option (List Char × Bool × List Spot)
  | 0, _ => none
  | n + 1, ss =>
    match gap? indent false ss with
    | none => none
    | some (g, rest) =>
      if endsPlain inBrackets indent rest then some ([], g.breaks != [], rest)
      else
        match plainWord? inBrackets rest with
        | none => none
        | some ([], _) => some ([], g.breaks != [], rest)
        | some (word, rest) =>
          (plainMore? inBrackets indent n rest).map fun (more, broken, rest) =>
            (g.text ++ word ++ more, broken, rest)

/-- A plain text, and whether it ends behind a line break. In a block its lines are indented. -/
def plain? (inBrackets : Bool) (indent : Nat) (ss : List Spot) :
    Option (List Char × Bool × List Spot) :=
  match plainWord? inBrackets ss with
  | none => none
  | some (word, rest) =>
    (plainMore? inBrackets indent (rest.length + 1) rest).map fun (more, broken, rest) =>
      (word ++ more, broken, rest)

/-! ## Texts in quotes -/

/-- What ends a word in quotes. -/
inductive Stop
  | quote
  | gap
  /-- A backslash in front of a line break. -/
  | joined

/-- The character that one letter behind a backslash stands for. -/
def letter? (c : Char) : Option Char :=
  if [' ', '\t', '"', '/', '\\'].contains c then some c
  else
    match c with
    | '0' => some '\x00'
    | 'a' => some '\x07'
    | 'b' => some '\x08'
    | 't' => some '\t'
    | 'n' => some '\n'
    | 'v' => some '\x0b'
    | 'f' => some '\x0c'
    | 'r' => some '\x0d'
    | 'e' => some '\x1b'
    | 'N' => some '\x85'
    | '_' => some '\xa0'
    | 'L' => some '\u2028'
    | 'P' => some '\u2029'
    | _ => none

/-- How many digits an escape of a code point has. -/
def digitCount? : Char → Option Nat
  | 'x' => some 2
  | 'u' => some 4
  | 'U' => some 8
  | _ => none

/-- The character of an escape behind its backslash, and the length of the escape. -/
def escape? : List Spot → Option (Char × Nat)
  | [] => none
  | s :: ss =>
    match digitCount? s.char with
    | some n =>
      (Text.charOfDigits? n ((ss.take n).map (·.char))).map fun (c, _) => (c, n + 1)
    | none => (letter? s.char).map (·, 1)

/-- A word in single quotes, in which a quote is written twice. -/
def singleWord? : List Spot → Option (List Char × Stop × List Spot)
  | [] => none
  | s :: ss =>
    if isBlank s.char ∨ isBreak s.char then some ([], .gap, s :: ss)
    else if s.char ≠ '\'' then
      (singleWord? ss).map fun (word, stop, rest) => (s.char :: word, stop, rest)
    else
      match ss with
      | [] => some ([], .quote, [])
      | t :: ts =>
        if t.char = '\'' then
          (singleWord? ts).map fun (word, stop, rest) => ('\'' :: word, stop, rest)
        else some ([], .quote, t :: ts)

/-- A word in double quotes. The number bounds the characters. -/
def doubleWord? : Nat → List Spot → Option (List Char × Stop × List Spot)
  | 0, _ => none
  | _, [] => none
  | n + 1, s :: ss =>
    if isBlank s.char ∨ isBreak s.char then some ([], .gap, s :: ss)
    else if s.char = '"' then some ([], .quote, ss)
    else if s.char ≠ '\\' then
      (doubleWord? n ss).map fun (word, stop, rest) => (s.char :: word, stop, rest)
    else if (ss.head?.map (isBreak ·.char)).getD false then some ([], .joined, ss.tail)
    else
      match escape? ss with
      | none => none
      | some (c, length) =>
        (doubleWord? n (ss.drop length)).map fun (word, stop, rest) => (c :: word, stop, rest)

/-- A text behind its opening quote. No mark of a document may begin a line in it. The number bounds
the words. -/
def quotedUpTo (single : Bool) : Nat → List Spot → Option (List Char × List Spot)
  | 0, _ => none
  | n + 1, ss =>
    if atDocumentMark ss then none
    else
      match if single then singleWord? ss else doubleWord? (ss.length + 1) ss with
      | none => none
      | some (word, .quote, rest) => some (word, rest)
      | some (word, .gap, rest) =>
        match gap? 0 false rest with
        | none => none
        | some (g, rest) =>
          (quotedUpTo single n rest).map fun (more, rest) => (word ++ g.text ++ more, rest)
      | some (word, .joined, rest) =>
        match gap? 0 true rest with
        | none => none
        | some (g, rest) =>
          (quotedUpTo single n rest).map fun (more, rest) => (word ++ g.breaks ++ more, rest)

def quoted? (single : Bool) (ss : List Spot) : Option (List Char × List Spot) :=
  quotedUpTo single (ss.length + 1) ss

end MetricAlarm.Data.Yaml
