import InferenceRouting.Setting.Basic
import InferenceRouting.Setting.Scalar

/-!
# YAML: scalars

A plain scalar is null, a flag, a number or a text, by its spelling; a quoted one is a text.  Both
may run over several lines: a single line break counts as a blank, and of several breaks in a row
the first one is dropped.
-/

namespace InferenceRouting.Yaml

/-- Space and tab. -/
def isBlank (c : Char) : Bool :=
  c = ' ' || c = '\t'

/-- Space, tab and the end of a line. -/
def isSpace (c : Char) : Bool :=
  isBlank c || c = '\n'

/-- Whether a text is more than one digit of which the first is zero; such a text is no number. -/
def isPaddedNumeral (cs : List Char) : Bool :=
  match Scalar.unsigned cs with
  | '0' :: d :: rest => (d :: rest).all Char.isDigit
  | _ => false

/-- The value of digits in a base, at least one. -/
def digitsIn? (base : Nat) (cs : List Char) : Option Int :=
  if cs.isEmpty || !cs.all (Scalar.isDigitIn base) then none else some (Scalar.valueIn base cs)

/-- An integer without a sign, in base sixteen, eight, two or ten. -/
def magnitude? : List Char → Option Int
  | '0' :: 'x' :: r => digitsIn? 16 r
  | '0' :: 'o' :: r => digitsIn? 8 r
  | '0' :: 'b' :: r => digitsIn? 2 r
  | cs => digitsIn? 10 cs

/-- An integer. -/
def integer? (cs : List Char) : Option Int :=
  if isPaddedNumeral cs then none
  else match cs with
    | '-' :: r => (magnitude? r).map (- ·)
    | '+' :: r => magnitude? r
    | cs => magnitude? cs

/-- The spellings of the numbers that are infinite or none. -/
def specialNumbers : List String :=
  [".inf", ".Inf", ".INF", "+.inf", "+.Inf", "+.INF", "-.inf", "-.Inf", "-.INF", ".nan", ".NaN",
   ".NAN"]

/-- The value of a plain scalar. -/
def resolve (s : String) : Setting :=
  if ["", "~", "null", "Null", "NULL"].contains s then .null
  else if ["true", "True", "TRUE"].contains s then .flag true
  else if ["false", "False", "FALSE"].contains s then .flag false
  else match integer? s.toList with
    | some n => .integer n
    | none =>
      if specialNumbers.contains s then .fraction
      else if Scalar.isDecimal s.toList && !isPaddedNumeral s.toList then .fraction
      else .text s

/-- What a run of blanks and line breaks inside a scalar stands for. -/
def fold (run : List Char) : List Char :=
  match run.count '\n' with
  | 0 => run
  | 1 => [' ']
  | k + 2 => List.replicate (k + 1) '\n'

/-- The characters that stand for others after a backslash. -/
def escapes : List (Char × Char) :=
  [('0', '\x00'), ('a', '\x07'), ('b', '\x08'), ('t', '\t'), ('\t', '\t'), ('n', '\n'),
   ('v', '\x0b'), ('f', '\x0c'), ('r', '\r'), ('e', '\x1b'), (' ', ' '), ('"', '"'), ('/', '/'),
   ('\\', '\\'), ('N', '\u0085'), ('_', '\u00a0'), ('L', '\u2028'), ('P', '\u2029')]

/-- The character of an escape, after its backslash. -/
def escape? : List Char → Option (Char × List Char)
  | 'x' :: r => Scalar.hexChar? 2 r
  | 'u' :: r => Scalar.hexChar? 4 r
  | 'U' :: r => Scalar.hexChar? 8 r
  | c :: r => (escapes.lookup c).map (·, r)
  | [] => none

/-- A double-quoted scalar after its opening quote. -/
def doubleQuoted : Nat → List Char → Option (List Char × List Char)
  | 0, _ => none
  | _ + 1, [] => none
  | fuel + 1, c :: rest =>
    if c = '"' then some ([], rest)
    else if c = '\\' then
      match rest with
      | '\n' :: rest => doubleQuoted fuel (rest.dropWhile isSpace)
      | rest => do
        let (e, rest) ← escape? rest
        let (cs, rest) ← doubleQuoted fuel rest
        some (e :: cs, rest)
    else if isSpace c then do
      let (cs, next) ← doubleQuoted fuel (rest.dropWhile isSpace)
      some (fold (c :: rest.takeWhile isSpace) ++ cs, next)
    else do
      let (cs, rest) ← doubleQuoted fuel rest
      some (c :: cs, rest)

/-- A single-quoted scalar after its opening quote; a quote inside is written twice. -/
def singleQuoted : Nat → List Char → Option (List Char × List Char)
  | 0, _ => none
  | _ + 1, [] => none
  | fuel + 1, c :: rest =>
    if c = '\'' then
      match rest with
      | '\'' :: rest => do
        let (cs, rest) ← singleQuoted fuel rest
        some ('\'' :: cs, rest)
      | rest => some ([], rest)
    else if isSpace c then do
      let (cs, next) ← singleQuoted fuel (rest.dropWhile isSpace)
      some (fold (c :: rest.takeWhile isSpace) ++ cs, next)
    else do
      let (cs, rest) ← singleQuoted fuel rest
      some (c :: cs, rest)

/-- A quoted scalar of either kind, from its opening quote on. -/
def quoted? (cs : List Char) : Option (String × List Char) :=
  match cs with
  | '"' :: rest => (doubleQuoted (cs.length + 1) rest).map fun (s, rest) => (String.ofList s, rest)
  | '\'' :: rest => (singleQuoted (cs.length + 1) rest).map fun (s, rest) => (String.ofList s, rest)
  | _ => none

/-- The characters that mean something else at the beginning of a plain scalar. -/
def indicators : List Char :=
  [',', '[', ']', '{', '}', '#', '&', '*', '!', '|', '>', '\'', '"', '%', '@', '`']

/-- The characters that separate the items of a collection on one line. -/
def flowMarks : List Char :=
  [',', '[', ']', '{', '}']

/-- Whether a text begins with a blank or a line break, or is empty. -/
def beginsBlank : List Char → Bool
  | [] => true
  | c :: _ => isSpace c

/-- Whether a plain scalar may begin here. -/
def canBeginPlain (inFlow : Bool) : List Char → Bool
  | [] => false
  | c :: rest =>
    if c = '-' || c = '?' || c = ':' then
      !beginsBlank rest && !(inFlow && (rest.head?.map flowMarks.contains).getD false)
    else !indicators.contains c && !isSpace c

/-- Whether a plain scalar ends before this text: at a colon that separates, and in a collection on
one line at its marks.  A comment begins after a blank only. -/
def endsPlain (inFlow afterBlank : Bool) : List Char → Bool
  | [] => true
  | c :: rest =>
    (c = ':' && (beginsBlank rest || (inFlow && (rest.head?.map flowMarks.contains).getD false)))
      || (c = '#' && afterBlank) || (inFlow && flowMarks.contains c)

/-- A plain scalar on one line, or over several lines in a collection on one line; the blanks after
it belong to the rest. -/
def plain (inFlow : Bool) : Nat → Bool → List Char → List Char × List Char
  | 0, _, cs => ([], cs)
  | fuel + 1, afterBlank, cs =>
    if endsPlain inFlow afterBlank cs then ([], cs)
    else match cs with
      | [] => ([], [])
      | c :: rest =>
        if isSpace c then
          let run := c :: rest.takeWhile isSpace
          match plain inFlow fuel true (rest.dropWhile isSpace) with
          | ([], _) => ([], cs)
          | (text, next) => (fold run ++ text, next)
        else
          let (text, next) := plain inFlow fuel false rest
          (c :: text, next)

end InferenceRouting.Yaml
