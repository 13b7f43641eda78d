import InferenceRouting.Text.Unprintable
import InferenceRouting.Json.Writer

/-!
# Quoted text for messages

A text in double quotes, for people: the quote and the backslash are escaped, as are line feed,
carriage return, tab and the zero character by their letter, and every character without a shape
of its own by its number, `\u{301}`.
-/

namespace InferenceRouting.Quoted

/-- Hexadecimal digits in lower case, most significant first. -/
def hexDigits (n : Nat) : List Char :=
  if n < 16 then [Json.hexDigit n] else hexDigits (n / 16) ++ [Json.hexDigit (n % 16)]
termination_by n
decreasing_by omega

/-- How one character is written. -/
def escapeChar (c : Char) : List Char :=
  if c = '"' then ['\\', '"']
  else if c = '\\' then ['\\', '\\']
  else if c = '\n' then ['\\', 'n']
  else if c = '\r' then ['\\', 'r']
  else if c = '\t' then ['\\', 't']
  else if c.toNat = 0 then ['\\', '0']
  else if Unprintable.contains c then ['\\', 'u', '\x7b'] ++ hexDigits c.toNat ++ ['\x7d']
  else [c]

/-- A text in double quotes. -/
def text (s : String) : String :=
  String.ofList ('"' :: s.toList.flatMap escapeChar ++ ['"'])

end InferenceRouting.Quoted
