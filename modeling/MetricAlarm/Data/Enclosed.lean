/-!
# Lists in brackets

Lists and tables are written alike in all formats: items with commas between them, up to a closing
sign. The formats differ in what they skip between items and in whether the last item may have a
comma behind it. Readers take the characters in front and return the rest behind the value.
-/

namespace MetricAlarm.Data

/-- Items with commas between them, at least one, up to the closing sign. The number bounds the
items. -/
def items {α : Type} (skip : List Char → List Char) (trailing : Bool)
    (item : List Char → Option (α × List Char)) (closing : Char) :
    Nat → List Char → Option (List α × List Char)
  | 0, _ => none
  | n + 1, cs =>
    match item cs with
    | none => none
    | some (x, rest) =>
      match skip rest with
      | [] => none
      | c :: rest =>
        if c = closing then some ([x], rest)
        else if c = ',' then
          let rest := skip rest
          if trailing ∧ rest.head? = some closing then some ([x], rest.tail)
          else (items skip trailing item closing n rest).map fun (xs, rest) => (x :: xs, rest)
        else none

/-- Any number of items, but no more than `limit`, behind an opening sign. As each has its comma or
the closing sign, the length of the whole text is no limit. -/
def enclosed {α : Type} (skip : List Char → List Char) (trailing : Bool)
    (item : List Char → Option (α × List Char)) (closing : Char) (limit : Nat) (cs : List Char) :
    Option (List α × List Char) :=
  let cs := skip cs
  if cs.head? = some closing then some ([], cs.tail)
  else items skip trailing item closing limit cs

end MetricAlarm.Data
