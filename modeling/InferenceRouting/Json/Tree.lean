import InferenceRouting.Json.Value

/-!
# Reading JSON text

Text is read in two steps.  `Tree.parse` gives the document as it is written: members in their
order with repeated keys, numerals as their digits, and no limit on nesting.  `Tree.toJson?` gives
the value a document denotes, within a limit on nesting.  Reading a record from the document needs
the first step alone, since a field nobody asks for is skipped without being understood.

The grammar is strict: no trailing commas, no leading zeros, no control characters in strings, and
nothing but blanks after the value.
-/

namespace InferenceRouting.Json

/-- A number as written: sign, digits before the point, digits after it, and the exponent. -/
structure Numeral where
  negative : Bool
  whole : List Char
  fraction : Option (List Char)
  exponent : Option (Bool × List Char)
  deriving Repr

/-- A document as written.  A string is `none` when its escapes do not spell Unicode text. -/
inductive Tree where
  | null
  | bool (value : Bool)
  | numeral (value : Numeral)
  | text (value : Option String)
  | items (items : List Tree)
  | members (members : List (Option String × Tree))
  deriving Repr

namespace Tree

/-- Space, line feed, tab and carriage return. -/
def isBlank (c : Char) : Bool :=
  c = ' ' || c = '\n' || c = '\t' || c = '\r'

/-- The rest after leading blanks. -/
def skipBlank (cs : List Char) : List Char :=
  cs.dropWhile isBlank

/-- The value of a hexadecimal digit in either case. -/
def hexValue (c : Char) : Option Nat :=
  if '0' ≤ c ∧ c ≤ '9' then some (c.toNat - 48)
  else if 'a' ≤ c ∧ c ≤ 'f' then some (c.toNat - 87)
  else if 'A' ≤ c ∧ c ≤ 'F' then some (c.toNat - 55)
  else none

/-- Four hexadecimal digits. -/
def hex4 : List Char → Option (Nat × List Char)
  | a :: b :: c :: d :: rest => do
    let a ← hexValue a
    let b ← hexValue b
    let c ← hexValue c
    let d ← hexValue d
    some (((a * 16 + b) * 16 + c) * 16 + d, rest)
  | _ => none

/-- The character of a one-letter escape. -/
def simpleEscape (c : Char) : Option Char :=
  if c = '"' then some '"'
  else if c = '\\' then some '\\'
  else if c = '/' then some '/'
  else if c = 'b' then some '\x08'
  else if c = 'f' then some '\x0c'
  else if c = 'n' then some '\n'
  else if c = 'r' then some '\r'
  else if c = 't' then some '\t'
  else none

/-- A unit of a string's content: a character, or half of a surrogate pair. -/
inductive StringUnit where
  | char (c : Char)
  | half (code : Nat)

/-- The units of a string up to its closing quote, and the rest. -/
def scanUnits : Nat → List Char → Option (List StringUnit × List Char)
  | 0, _ => none
  | _ + 1, [] => none
  | fuel + 1, c :: rest =>
    if c = '"' then some ([], rest)
    else if c = '\\' then
      match rest with
      | [] => none
      | e :: rest =>
        if e = 'u' then do
          let (code, rest) ← hex4 rest
          let unit := if 0xD800 ≤ code ∧ code < 0xE000 then StringUnit.half code
            else StringUnit.char (Char.ofNat code)
          let (units, rest) ← scanUnits fuel rest
          some (unit :: units, rest)
        else do
          let c ← simpleEscape e
          let (units, rest) ← scanUnits fuel rest
          some (.char c :: units, rest)
    else if c.toNat < 32 then none
    else do
      let (units, rest) ← scanUnits fuel rest
      some (.char c :: units, rest)

/-- The text of a string's units: a high half must be followed by a low one. -/
def joinUnits : List StringUnit → Option (List Char)
  | [] => some []
  | .char c :: rest => (joinUnits rest).map (c :: ·)
  | .half high :: .half low :: rest =>
    if high < 0xDC00 ∧ 0xDC00 ≤ low then
      (joinUnits rest).map (Char.ofNat (0x10000 + (high - 0xD800) * 0x400 + (low - 0xDC00)) :: ·)
    else none
  | .half _ :: _ => none

/-- A string after its opening quote. -/
def scanString (cs : List Char) : Option (Option String × List Char) := do
  let (units, rest) ← scanUnits (cs.length + 1) cs
  some ((joinUnits units).map String.ofList, rest)

/-- The digits after a point: at least one. -/
def scanFraction : List Char → Option (Option (List Char) × List Char)
  | '.' :: rest =>
    let ds := rest.takeWhile Char.isDigit
    if ds.isEmpty then none else some (some ds, rest.dropWhile Char.isDigit)
  | cs => some (none, cs)

/-- An exponent: a sign and at least one digit.  The flag says whether it is negative. -/
def scanExponent : List Char → Option (Option (Bool × List Char) × List Char)
  | c :: rest =>
    if c = 'e' ∨ c = 'E' then
      let (negative, rest) := match rest with
        | '+' :: r => (false, r)
        | '-' :: r => (true, r)
        | r => (false, r)
      let ds := rest.takeWhile Char.isDigit
      if ds.isEmpty then none else some (some (negative, ds), rest.dropWhile Char.isDigit)
    else some (none, c :: rest)
  | [] => some (none, [])

/-- A number without its sign.  The digits before the point have no leading zero. -/
def scanNumber (negative : Bool) (cs : List Char) : Option (Numeral × List Char) := do
  let whole := cs.takeWhile Char.isDigit
  let rest := cs.dropWhile Char.isDigit
  match whole with
  | [] => none
  | '0' :: _ :: _ => none
  | _ =>
    let (fraction, rest) ← scanFraction rest
    let (exponent, rest) ← scanExponent rest
    some (⟨negative, whole, fraction, exponent⟩, rest)

mutual

/-- A value after leading blanks, and the rest. -/
def scanValue : Nat → List Char → Option (Tree × List Char)
  | 0, _ => none
  | fuel + 1, cs =>
    match skipBlank cs with
    | 'n' :: 'u' :: 'l' :: 'l' :: rest => some (.null, rest)
    | 't' :: 'r' :: 'u' :: 'e' :: rest => some (.bool true, rest)
    | 'f' :: 'a' :: 'l' :: 's' :: 'e' :: rest => some (.bool false, rest)
    | '"' :: rest => (scanString rest).map fun (s, rest) => (.text s, rest)
    | '-' :: rest => (scanNumber true rest).map fun (n, rest) => (.numeral n, rest)
    | '[' :: rest =>
      match skipBlank rest with
      | ']' :: rest => some (.items [], rest)
      | rest => (scanItems fuel rest).map fun (ts, rest) => (.items ts, rest)
    | '{' :: rest =>
      match skipBlank rest with
      | '}' :: rest => some (.members [], rest)
      | rest => (scanMembers fuel rest).map fun (ms, rest) => (.members ms, rest)
    | rest => (scanNumber false rest).map fun (n, rest) => (.numeral n, rest)

/-- One or more values separated by commas, up to the closing bracket. -/
def scanItems : Nat → List Char → Option (List Tree × List Char)
  | 0, _ => none
  | fuel + 1, cs => do
    let (t, rest) ← scanValue fuel cs
    match skipBlank rest with
    | ',' :: rest =>
      let (ts, rest) ← scanItems fuel rest
      some (t :: ts, rest)
    | ']' :: rest => some ([t], rest)
    | _ => none

/-- One or more members separated by commas, up to the closing brace. -/
def scanMembers : Nat → List Char → Option (List (Option String × Tree) × List Char)
  | 0, _ => none
  | fuel + 1, cs =>
    match skipBlank cs with
    | '"' :: rest => do
      let (key, rest) ← scanString rest
      match skipBlank rest with
      | ':' :: rest =>
        let (t, rest) ← scanValue fuel rest
        match skipBlank rest with
        | ',' :: rest =>
          let (ms, rest) ← scanMembers fuel rest
          some ((key, t) :: ms, rest)
        | '}' :: rest => some ([(key, t)], rest)
        | _ => none
      | _ => none
    | _ => none

end

/-- A whole text: one value with blanks around it. -/
def parse (cs : List Char) : Option Tree := do
  let (t, rest) ← scanValue (cs.length + 1) cs
  if (skipBlank rest).isEmpty then some t else none

end Tree

namespace Numeral

/-- The largest power of ten that a double holds. -/
def maxPower : Nat := 308

/-- Digits taken into a 64-bit significand, and how many were left over. -/
def fill : Nat → List Char → Nat × List Char
  | acc, [] => (acc, [])
  | acc, c :: rest =>
    let next := acc * 10 + Decimal.digitValue c
    if next ≤ maxNat64 then fill next rest else (acc, c :: rest)

/-- `significand * 10 ^ power`, in steps of at most 308 powers, each rounded; `none` beyond the
largest double.  Divisions past the least double give zero. -/
def scaleDown : Nat → Binary64 → Nat → Option Binary64
  | 0, x, _ => some x
  | fuel + 1, x, power =>
    if power ≤ maxPower then do x.div (← Binary64.ofNat? (Nat.pow 10 power))
    else if x.mantissa = 0 then some x
    else do scaleDown fuel (← x.div (← Binary64.ofNat? (Nat.pow 10 maxPower))) (power - maxPower)

/-- The double of a significand and a power of ten. -/
def real (negative : Bool) (significand : Nat) (power : Int) : Option Binary64 := do
  let x ← Binary64.ofNat? significand
  let magnitude ←
    if 0 ≤ power then
      if power.toNat ≤ maxPower then x.mul (← Binary64.ofNat? (Nat.pow 10 power.toNat))
      else if x.mantissa = 0 then some x else none
    else scaleDown ((-power).toNat / maxPower + 1) x (-power).toNat
  some { magnitude with negative := negative }

/-- The exponent as a number.  One beyond the 32-bit range is `none`. -/
def power? (digits : List Char) : Option Nat :=
  let n := Decimal.value digits
  if n ≤ 2147483647 then some n else none

/-- The number denoted.  Without a point and an exponent it is an integer if it fits 64 bits; a
minus sign before zero makes a double.  Digits that a 64-bit significand cannot take are dropped.
`none` for a number beyond the largest double. -/
def number? (n : Numeral) : Option Number := do
  let (significand, left) := fill 0 n.whole
  if n.fraction.isNone && n.exponent.isNone && left.isEmpty
      && (!n.negative || (0 < significand && minInt64 ≤ -(significand : Int))) then
    some (.int (if n.negative then -(significand : Int) else significand))
  else
    let (significand, places) := match n.fraction with
      | none => (significand, 0)
      | some ds =>
        let (s, rest) := fill significand ds
        (s, ds.length - rest.length)
    let base : Int := (left.length : Int) - places
    match n.exponent with
    | none => (real n.negative significand base).map .real
    | some (negative, ds) =>
      match power? ds with
      | some p => (real n.negative significand (if negative then base - p else base + p)).map .real
      | none =>
        if significand ≠ 0 && !negative then none else some (.real (Binary64.zero n.negative))

end Numeral

namespace Tree

mutual

/-- The value a document denotes, at most `room` arrays and objects deep. -/
def toJson? (room : Nat) : Tree → Option Json
  | .null => some .null
  | .bool b => some (.bool b)
  | .numeral n => n.number?.map .num
  | .text s => s.map .str
  | .items ts =>
    match room with
    | 0 => none
    | room + 1 => (itemsToJson? room ts).map .arr
  | .members ms =>
    match room with
    | 0 => none
    | room + 1 => (membersToJson? room ms).map Json.ofMembers

/-- The values of a list of documents. -/
def itemsToJson? (room : Nat) : List Tree → Option (List Json)
  | [] => some []
  | t :: ts => do
    let j ← toJson? room t
    let js ← itemsToJson? room ts
    some (j :: js)

/-- The members of an object, in the order written. -/
def membersToJson? (room : Nat) : List (Option String × Tree) → Option (List (String × Json))
  | [] => some []
  | (key, t) :: ms => do
    let k ← key
    let j ← toJson? room t
    let js ← membersToJson? room ms
    some ((k, j) :: js)

end

/-- The number of arrays and objects within each other that a parsed value may have. -/
def maxDepth : Nat := 127

end Tree

/-- Reads a whole text as a value of the usual nesting. -/
def parse (cs : List Char) : Option Json := do
  (← Tree.parse cs).toJson? Tree.maxDepth

/-- Reads a whole text as a value of any nesting. -/
def parseDeep (cs : List Char) : Option Json := do
  (← Tree.parse cs).toJson? cs.length

end InferenceRouting.Json
