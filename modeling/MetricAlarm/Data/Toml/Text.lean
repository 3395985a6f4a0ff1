import MetricAlarm.Data.Escaped

/-!
# Names and texts in TOML

What a TOML document is made of below its values: spaces, comments, line breaks, names with points
between their parts, and texts in single and double quotes, on one line or on several. Readers
return the rest; a comment ends in front of a character that no comment may hold, so that the reader
behind it refuses that character.
-/

namespace MetricAlarm.Data.Toml

def isSpace (c : Char) : Bool := c = ' ' || c = '\t'

def skipSpace (cs : List Char) : List Char := cs.dropWhile isSpace

/-- What is left behind a comment. -/
def skipComment : List Char → List Char
  | '#' :: cs => cs.dropWhile Escaped.isPlain
  | cs => cs

/-- The rest behind the end of a line, before which only space and a comment may stand. -/
def endLine? (cs : List Char) : Option (List Char) :=
  match skipComment (skipSpace cs) with
  | [] => some []
  | '\n' :: rest => some rest
  | '\x0d' :: '\n' :: rest => some rest
  | _ => none

/-- The rest behind so many lines at most that hold nothing but spaces and a comment, and behind the
spaces and comment that follow. -/
def skipLinesUpTo : Nat → List Char → List Char
  | 0, cs => cs
  | n + 1, cs =>
    match skipComment (skipSpace cs) with
    | '\n' :: rest => skipLinesUpTo n rest
    | '\x0d' :: '\n' :: rest => skipLinesUpTo n rest
    | rest => rest

def skipLines (cs : List Char) : List Char := skipLinesUpTo (cs.length + 1) cs

/-! ## Texts on one line -/

/-- The body of a text in single quotes. -/
def literalBody : List Char → Option (List Char × List Char)
  | [] => none
  | '\'' :: rest => some ([], rest)
  | c :: rest =>
    if Escaped.isPlain c then (literalBody rest).map fun (s, rest) => (c :: s, rest) else none

def literal (cs : List Char) : Option (String × List Char) :=
  (literalBody cs).map fun (s, rest) => (String.ofList s, rest)

/-! ## Texts on several lines -/

/-- What is left behind spaces and line breaks. -/
def skipBreaks : List Char → List Char
  | '\x0d' :: '\n' :: cs => skipBreaks cs
  | c :: cs => if isSpace c ∨ c = '\n' then skipBreaks cs else c :: cs
  | [] => []

/-- The rest behind a backslash that joins the lines around it. -/
def joinedLines? (cs : List Char) : Option (List Char) :=
  match skipSpace cs with
  | '\n' :: rest => some (skipBreaks rest)
  | '\x0d' :: '\n' :: rest => some (skipBreaks rest)
  | _ => none

/-- The body of a text between three quotes on either side. Of the quotes at its end up to two more
belong to the text. The number bounds the characters; those read before are given backwards. -/
def longBodyUpTo (quote : Char) : Nat → List Char → List Char → Option (String × List Char)
  | 0, _, _ => none
  | n + 1, read, cs =>
    match cs with
    | [] => none
    | '\n' :: rest => longBodyUpTo quote n ('\n' :: read) rest
    | '\x0d' :: '\n' :: rest => longBodyUpTo quote n ('\n' :: read) rest
    | c :: rest =>
      if c = quote then
        let quotes := min 5 (cs.takeWhile (· = quote)).length
        if quotes < 3 then longBodyUpTo quote n (c :: read) rest
        else
          some (String.ofList (List.replicate (quotes - 3) quote ++ read).reverse, cs.drop quotes)
      else if c = '\\' ∧ quote = '"' then
        match joinedLines? rest with
        | some rest => longBodyUpTo quote n read rest
        | none =>
          match Escaped.escape? rest with
          | some (d, rest) => longBodyUpTo quote n (d :: read) rest
          | none => none
      else if Escaped.isPlain c then longBodyUpTo quote n (c :: read) rest
      else none

/-- A text behind its three opening quotes; a line break directly behind them does not count. -/
def long (quote : Char) (cs : List Char) : Option (String × List Char) :=
  let cs := match cs with
    | '\n' :: rest => rest
    | '\x0d' :: '\n' :: rest => rest
    | cs => cs
  longBodyUpTo quote (cs.length + 1) [] cs

/-- A text in front. -/
def text? : List Char → Option (String × List Char)
  | '"' :: '"' :: '"' :: rest => long '"' rest
  | '\'' :: '\'' :: '\'' :: rest => long '\'' rest
  | '"' :: rest => Escaped.body rest
  | '\'' :: rest => literal rest
  | _ => none

/-! ## Names -/

def isNameChar (c : Char) : Bool := c.isAlphanum || c = '_' || c = '-'

def name? : List Char → Option (String × List Char)
  | '"' :: rest => Escaped.body rest
  | '\'' :: rest => literal rest
  | cs =>
    let word := cs.takeWhile isNameChar
    if word = [] then none else some (String.ofList word, cs.dropWhile isNameChar)

/-- The parts of a name with points between them, at most so many. -/
def pathUpTo : Nat → List Char → Option (List String × List Char)
  | 0, _ => none
  | n + 1, cs =>
    match name? (skipSpace cs) with
    | none => none
    | some (first, rest) =>
      match skipSpace rest with
      | '.' :: rest => (pathUpTo n rest).map fun (more, rest) => (first :: more, rest)
      | rest => some ([first], rest)

/-- Names have fewer than eighty parts. -/
def path? (cs : List Char) : Option (List String × List Char) := pathUpTo 79 cs

end MetricAlarm.Data.Toml
