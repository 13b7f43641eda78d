import InferenceRouting.Json.Value
import InferenceRouting.Number.Shortest

/-!
# JSON in compact form

`Json.render` writes a value without blanks.  In a string the quote, the backslash and the control
characters are escaped, the usual five by their letter and the others as `\u00xx`; all other
characters stand for themselves.  A double is written as the shortest decimal that reads back.

`Json.renderFixed` is the same with every double as a string of exactly six decimals.
-/

namespace InferenceRouting.Json

/-- A hexadecimal digit in lower case. -/
def hexDigit (d : Nat) : Char :=
  if d < 10 then Char.ofNat (48 + d) else Char.ofNat (87 + d)

/-- How one character of a string is written. -/
def escapeChar (c : Char) : List Char :=
  if c = '"' then ['\\', '"']
  else if c = '\\' then ['\\', '\\']
  else if c = '\x08' then ['\\', 'b']
  else if c = '\x0c' then ['\\', 'f']
  else if c = '\n' then ['\\', 'n']
  else if c = '\r' then ['\\', 'r']
  else if c = '\t' then ['\\', 't']
  else if c.toNat < 32 then ['\\', 'u', '0', '0', hexDigit (c.toNat / 16), hexDigit (c.toNat % 16)]
  else [c]

/-- A string in quotes. -/
def renderString (s : String) : List Char :=
  '"' :: s.toList.flatMap escapeChar ++ ['"']

/-- An integer in decimal. -/
def renderInt (n : Int) : List Char :=
  if n < 0 then '-' :: Decimal.digits n.natAbs else Decimal.digits n.natAbs

mutual

/-- Compact text with `real` for the doubles. -/
def renderWith (real : Binary64 → List Char) : Json → List Char
  | .null => ['n', 'u', 'l', 'l']
  | .bool true => ['t', 'r', 'u', 'e']
  | .bool false => ['f', 'a', 'l', 's', 'e']
  | .num (.int n) => renderInt n
  | .num (.real x) => real x
  | .str s => renderString s
  | .arr items => '[' :: renderItems real items ++ [']']
  | .obj members => '{' :: renderMembers real members ++ ['}']

/-- Items separated by commas. -/
def renderItems (real : Binary64 → List Char) : List Json → List Char
  | [] => []
  | [j] => renderWith real j
  | j :: rest => renderWith real j ++ ',' :: renderItems real rest

/-- Members separated by commas. -/
def renderMembers (real : Binary64 → List Char) : List (String × Json) → List Char
  | [] => []
  | [(k, v)] => renderString k ++ ':' :: renderWith real v
  | (k, v) :: rest => renderString k ++ ':' :: renderWith real v ++ ',' :: renderMembers real rest

end

/-- Compact text. -/
def render (j : Json) : List Char :=
  renderWith (fun x => (Shortest.text x).toList) j

/-- Compact text as a string. -/
def compact (j : Json) : String :=
  String.ofList j.render

/-- Compact text with each double as a string of six decimals. -/
def compactFixed (j : Json) : String :=
  String.ofList (renderWith (fun x => renderString x.sixPlaces) j)

end InferenceRouting.Json
