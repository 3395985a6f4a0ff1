import MetricAlarm.Text.DecimalDigit

/-!
# Dates and times in TOML

A date, a time of day, or both with a `T` or a space between them and perhaps an offset behind. No
setting is a date, so that only its length matters: readers return the rest behind it.
-/

namespace MetricAlarm.Data.Toml

def isLeapYear (year : Nat) : Bool := year % 4 = 0 && (year % 100 ≠ 0 || year % 400 = 0)

/-- The days of a month. -/
def daysIn (year month : Nat) : Nat :=
  if month = 2 then if isLeapYear year then 29 else 28
  else if [4, 6, 9, 11].contains month then 30
  else 31

/-- So many digits, and their value. -/
def digits? (count : Nat) (cs : List Char) : Option (Nat × List Char) :=
  let ds := cs.take count
  if ds.length = count ∧ ds.all Char.isDigit then some (Text.digitsValue ds, cs.drop count)
  else none

/-- Two digits with a value in a range. -/
def twoDigits? (low high : Nat) (cs : List Char) : Option (Nat × List Char) :=
  match digits? 2 cs with
  | some (n, rest) => if low ≤ n ∧ n ≤ high then some (n, rest) else none
  | none => none

def sign? (c : Char) : List Char → Option (List Char)
  | d :: cs => if d = c then some cs else none
  | [] => none

def date? (cs : List Char) : Option (List Char) := do
  let (year, cs) ← digits? 4 cs
  let (month, cs) ← twoDigits? 1 12 (← sign? '-' cs)
  let (_, cs) ← twoDigits? 1 (daysIn year month) (← sign? '-' cs)
  some cs

/-- Hours and minutes. -/
def hourAndMinute? (cs : List Char) : Option (List Char) := do
  let (_, cs) ← twoDigits? 0 23 cs
  let (_, cs) ← twoDigits? 0 59 (← sign? ':' cs)
  some cs

/-- A time of day to the second, of which a leap second is the sixty-first, or finer. -/
def time? (cs : List Char) : Option (List Char) := do
  let cs ← hourAndMinute? cs
  let (_, cs) ← twoDigits? 0 60 (← sign? ':' cs)
  match cs with
  | '.' :: c :: rest => some (if c.isDigit then rest.dropWhile Char.isDigit else cs)
  | cs => some cs

/-- The rest behind an offset, if there is one. -/
def skipOffset (cs : List Char) : List Char :=
  match cs with
  | [] => []
  | c :: rest =>
    if c = 'Z' ∨ c = 'z' then rest
    else if c = '+' ∨ c = '-' then (hourAndMinute? rest).getD cs
    else cs

/-- The rest behind a date, a time or both. -/
def moment? (cs : List Char) : Option (List Char) :=
  match date? cs with
  | none => time? cs
  | some rest =>
    match rest with
    | c :: more =>
      if ['T', 't', ' '].contains c then some (((time? more).map skipOffset).getD rest)
      else some rest
    | [] => some []

end MetricAlarm.Data.Toml
