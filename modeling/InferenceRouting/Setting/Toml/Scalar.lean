import InferenceRouting.Setting.Basic
import InferenceRouting.Setting.Scalar

/-!
# TOML: keys, strings and scalars

Each scanner takes the text from its first character on and gives what it read with the rest, or
`none` when the text is not of its form.  Quoted strings have the usual escapes, literal ones have
none; both have a form over several lines.  A date or a time is a table of one member that is no
setting's name.
-/

namespace InferenceRouting.Toml

/-- Space and tab. -/
def isBlank (c : Char) : Bool :=
  c = ' ' || c = '\t'

/-- The rest after blanks. -/
def skipBlank (cs : List Char) : List Char :=
  cs.dropWhile isBlank

/-- Whether a character may stand in a comment or a string: no control character but the tab. -/
def isPlain (c : Char) : Bool :=
  c = '\t' || (32 ≤ c.toNat && c.toNat ≠ 127)

/-- The rest after the end of a line. -/
def newline? : List Char → Option (List Char)
  | '\n' :: r => some r
  | '\r' :: '\n' :: r => some r
  | _ => none

/-- The rest after a comment, if there is one. -/
def skipComment : List Char → List Char
  | '#' :: r => r.dropWhile isPlain
  | cs => cs

/-- The rest after blanks, a comment and the end of the line or of the text. -/
def lineEnd? (cs : List Char) : Option (List Char) :=
  match skipComment (skipBlank cs) with
  | [] => some []
  | rest => newline? rest

/-- The rest after blanks, comments and ends of lines.  `fuel` bounds the lines. -/
def skipLines : Nat → List Char → List Char
  | 0, cs => cs
  | fuel + 1, cs =>
    let rest := skipComment (skipBlank cs)
    match newline? rest with
    | some rest => skipLines fuel rest
    | none => rest

/-- The character of an escape, after its backslash. -/
def escape? : List Char → Option (Char × List Char)
  | 'b' :: r => some ('\x08', r)
  | 't' :: r => some ('\t', r)
  | 'n' :: r => some ('\n', r)
  | 'f' :: r => some ('\x0c', r)
  | 'r' :: r => some ('\r', r)
  | '"' :: r => some ('"', r)
  | '\\' :: r => some ('\\', r)
  | 'u' :: r => Scalar.hexChar? 4 r
  | 'U' :: r => Scalar.hexChar? 8 r
  | _ => none

/-- A quoted string after its opening quote. -/
def quoted : Nat → List Char → Option (List Char × List Char)
  | 0, _ => none
  | _ + 1, [] => none
  | fuel + 1, c :: rest =>
    if c = '"' then some ([], rest)
    else if c = '\\' then do
      let (e, rest) ← escape? rest
      let (cs, rest) ← quoted fuel rest
      some (e :: cs, rest)
    else if isPlain c then do
      let (cs, rest) ← quoted fuel rest
      some (c :: cs, rest)
    else none

/-- A literal string after its opening quote. -/
def literal (cs : List Char) : Option (List Char × List Char) :=
  match cs.dropWhile fun c => isPlain c && c ≠ '\'' with
  | '\'' :: rest => some (cs.takeWhile fun c => isPlain c && c ≠ '\'', rest)
  | _ => none

/-- The rest after a backslash at the end of a line: blanks and ends of lines are skipped.  `none`
when the backslash is not the last on its line. -/
def lineJoin? (cs : List Char) : Option (List Char) := do
  let rest ← newline? (skipBlank cs)
  some (rest.dropWhile fun c => isBlank c || c = '\n' || c = '\r')

/-- A run of quotes inside a string over several lines: fewer than three belong to the text, of more
the last three close it. -/
def quoteRun (mark : Char) (cs : List Char) : List Char × Bool × List Char :=
  let count := (cs.takeWhile (· = mark)).length
  if count < 3 then (List.replicate count mark, false, cs.drop count)
  else (List.replicate (min (count - 3) 2) mark, true, cs.drop (min count 5))

/-- A quoted or literal string over several lines, after its opening quotes and the end of their
line. -/
def multiline (mark : Char) : Nat → List Char → Option (List Char × List Char)
  | 0, _ => none
  | _ + 1, [] => none
  | fuel + 1, c :: rest =>
    if c = mark then
      match quoteRun mark (c :: rest) with
      | (text, true, rest) => some (text, rest)
      | (text, false, rest) => do
        let (cs, rest) ← multiline mark fuel rest
        some (text ++ cs, rest)
    else if c = '\\' && mark = '"' then
      match lineJoin? rest with
      | some rest => multiline mark fuel rest
      | none => do
        let (e, rest) ← escape? rest
        let (cs, rest) ← multiline mark fuel rest
        some (e :: cs, rest)
    else
      match newline? (c :: rest) with
      | some rest => do
        let (cs, rest) ← multiline mark fuel rest
        some ('\n' :: cs, rest)
      | none =>
        if isPlain c then do
          let (cs, rest) ← multiline mark fuel rest
          some (c :: cs, rest)
        else none

/-- A string of any kind, from its opening quote on. -/
def string? (cs : List Char) : Option (String × List Char) := do
  let fuel := cs.length + 1
  let (text, rest) ← match cs with
    | '"' :: '"' :: '"' :: rest => multiline '"' fuel ((newline? rest).getD rest)
    | '\'' :: '\'' :: '\'' :: rest => multiline '\'' fuel ((newline? rest).getD rest)
    | '"' :: rest => quoted fuel rest
    | '\'' :: rest => literal rest
    | _ => none
  some (String.ofList text, rest)

/-- Whether a character may stand in a key without quotes. -/
def isKeyChar (c : Char) : Bool :=
  c.isAlphanum || c = '_' || c = '-'

/-- One part of a key. -/
def keyPart? (cs : List Char) : Option (String × List Char) :=
  match cs with
  | '"' :: rest => (quoted (cs.length + 1) rest).map fun (k, rest) => (String.ofList k, rest)
  | '\'' :: rest => (literal rest).map fun (k, rest) => (String.ofList k, rest)
  | _ =>
    let k := cs.takeWhile isKeyChar
    if k.isEmpty then none else some (String.ofList k, cs.dropWhile isKeyChar)

/-- A key of parts separated by points, with blanks around each part. -/
def key? : Nat → List Char → Option (List String × List Char)
  | 0, _ => none
  | fuel + 1, cs => do
    let (k, rest) ← keyPart? (skipBlank cs)
    match skipBlank rest with
    | '.' :: rest =>
      let (ks, rest) ← key? fuel rest
      some (k :: ks, rest)
    | rest => some ([k], rest)

/-- Digits without the underscores between them. -/
def digits? (base : Nat) (cs : List Char) : Option (List Char) :=
  let groups := cs.splitOn '_'
  if groups.all fun g => !g.isEmpty && g.all (Scalar.isDigitIn base) then some groups.flatten
  else none

/-- Digits in base ten without a leading zero. -/
def wholeDigits? (cs : List Char) : Option (List Char) :=
  match digits? 10 cs with
  | some ('0' :: _ :: _) => none
  | ds => ds

/-- An integer of 64 bits. -/
def integer? (cs : List Char) : Option Int :=
  let value : Option Int := match cs with
    | '0' :: 'x' :: r => (digits? 16 r).map fun ds => (Scalar.valueIn 16 ds : Int)
    | '0' :: 'o' :: r => (digits? 8 r).map fun ds => (Scalar.valueIn 8 ds : Int)
    | '0' :: 'b' :: r => (digits? 2 r).map fun ds => (Scalar.valueIn 2 ds : Int)
    | '-' :: r => (wholeDigits? r).map fun ds => -(Decimal.value ds : Int)
    | _ => (wholeDigits? (Scalar.unsigned cs)).map fun ds => (Decimal.value ds : Int)
  value.filter fun n => decide (Json.minInt64 ≤ n) && decide (n ≤ Json.maxInt64)

/-- Whether a text is a number with a fraction or an exponent, or one of the special numbers. -/
def isFraction (cs : List Char) : Bool :=
  let body := Scalar.unsigned cs
  if body = ['i', 'n', 'f'] || body = ['n', 'a', 'n'] then true
  else
    let isGroup (c : Char) : Bool := c.isDigit || c = '_'
    let exponentOk (r : List Char) : Bool := match r with
      | c :: r => (c = 'e' || c = 'E') && (digits? 10 (Scalar.unsigned r)).isSome
      | [] => false
    (wholeDigits? (body.takeWhile isGroup)).isSome &&
      match body.dropWhile isGroup with
      | '.' :: r =>
        (digits? 10 (r.takeWhile isGroup)).isSome
          && ((r.dropWhile isGroup).isEmpty || exponentOk (r.dropWhile isGroup))
      | r => exponentOk r

/-- A number of exactly so many digits. -/
def fixed? (count : Nat) (cs : List Char) : Option (Nat × List Char) :=
  let ds := cs.take count
  if ds.length = count && ds.all Char.isDigit then some (Decimal.value ds, cs.drop count) else none

/-- The number of days of a month. -/
def daysIn (year month : Nat) : Nat :=
  if month = 2 then (if year % 4 = 0 && (year % 100 ≠ 0 || year % 400 = 0) then 29 else 28)
  else if month = 4 || month = 6 || month = 9 || month = 11 then 30 else 31

/-- The rest after a date. -/
def date? (cs : List Char) : Option (List Char) := do
  let (year, rest) ← fixed? 4 cs
  let '-' :: rest := rest | none
  let (month, rest) ← fixed? 2 rest
  let '-' :: rest := rest | none
  let (day, rest) ← fixed? 2 rest
  if 1 ≤ month && month ≤ 12 && 1 ≤ day && day ≤ daysIn year month then some rest else none

/-- The rest after a fraction of a second, if there is one. -/
def fractionEnd? : List Char → Option (List Char)
  | '.' :: r =>
    if (r.takeWhile Char.isDigit).isEmpty then none else some (r.dropWhile Char.isDigit)
  | cs => some cs

/-- The rest after a time of day. -/
def time? (cs : List Char) : Option (List Char) := do
  let (hour, rest) ← fixed? 2 cs
  let ':' :: rest := rest | none
  let (minute, rest) ← fixed? 2 rest
  let ':' :: rest := rest | none
  let (second, rest) ← fixed? 2 rest
  if hour < 24 && minute < 60 && second ≤ 60 then fractionEnd? rest else none

/-- Whether a text is empty or an offset from universal time. -/
def isOffset : List Char → Bool
  | [] => true
  | ['Z'] => true
  | ['z'] => true
  | c :: rest => (c = '+' || c = '-') && ((do
      let (hour, rest) ← fixed? 2 rest
      let ':' :: rest := rest | none
      let (minute, rest) ← fixed? 2 rest
      some (hour < 24 && minute < 60 && rest.isEmpty)).getD false)

/-- Whether a text is a date, a time, or both. -/
def isDateTime (cs : List Char) : Bool :=
  match date? cs with
  | some [] => true
  | some (c :: rest) => (c = 'T' || c = 't' || c = ' ') && ((time? rest).map isOffset).getD false
  | none => time? cs == some []

/-- Whether a character may stand in a scalar without quotes. -/
def isScalarChar (c : Char) : Bool :=
  c.isAlphanum || c = '_' || c = '+' || c = '-' || c = '.' || c = ':'

/-- The characters of a scalar without quotes, and the rest.  A blank may separate a date from a
time. -/
def scalarChars (cs : List Char) : List Char × List Char :=
  let first := cs.takeWhile isScalarChar
  let rest := cs.dropWhile isScalarChar
  match date? first, rest with
  | some [], ' ' :: d :: more =>
    if d.isDigit then
      (first ++ ' ' :: (d :: more).takeWhile isScalarChar, (d :: more).dropWhile isScalarChar)
    else (first, rest)
  | _, _ => (first, rest)

/-- A scalar without quotes. -/
def scalar? (cs : List Char) : Option (Setting × List Char) :=
  let (token, rest) := scalarChars cs
  if token = ['t', 'r', 'u', 'e'] then some (.flag true, rest)
  else if token = ['f', 'a', 'l', 's', 'e'] then some (.flag false, rest)
  else match integer? token with
    | some n => some (.integer n, rest)
    | none =>
      if isFraction token then some (.fraction, rest)
      else if isDateTime token then
        some (.table [("", .text (String.ofList token))], rest)
      else none

end InferenceRouting.Toml
