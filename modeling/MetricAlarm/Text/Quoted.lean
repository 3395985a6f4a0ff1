import MetricAlarm.Text.Unprintable
import MetricAlarm.Text.Combining

/-!
# Quoted text

A text field of a log line stands in double quotes; the quote, the backslash and the usual controls
are escaped, and a character that cannot be shown or would combine with the one before it is given
by its number in lower-case hexadecimal.
-/

namespace MetricAlarm.Text

/-- `\u` and the code point in braces. -/
def numberEscape (c : Char) : List Char :=
  '\\' :: 'u' :: '\x7b' :: (Nat.toDigits 16 c.toNat ++ ['\x7d'])

def escaped (c : Char) : List Char :=
  if c = '"' then ['\\', '"']
  else if c = '\\' then ['\\', '\\']
  else if c = '\n' then ['\\', 'n']
  else if c = '\x0d' then ['\\', 'r']
  else if c = '\t' then ['\\', 't']
  else if c.toNat = 0 then ['\\', '0']
  else if isCombining c || isUnprintable c then numberEscape c
  else [c]

def quoted (s : String) : String := String.ofList ('"' :: (s.toList.flatMap escaped ++ ['"']))

end MetricAlarm.Text
