import InferenceRouting.Setting.Yaml.Scalar
import InferenceRouting.Json.Writer

/-!
# Writing YAML

Every member of a table and every item of a list stands on lines of its own, indented by two; the
items of a list stand at the column of its name.  A text is written plain where it would be read
back as the same text, in single quotes where it would not, with escapes where it has characters
that cannot be shown, and as a block where it has several lines.
-/

namespace InferenceRouting.Yaml

/-- Whether a character is written as it is. -/
def isPrintable (c : Char) : Bool :=
  let n := c.toNat
  n = 0x0A || (0x20 ≤ n && n ≤ 0x7E) || (0xA0 ≤ n && n < 0xFFFE && n ≠ 0xFEFF)

/-- Whether a character ends a line. -/
def isBreak (c : Char) : Bool :=
  let n := c.toNat
  n = 0x0A || n = 0x0D || n = 0x85 || n = 0x2028 || n = 0x2029

/-- Whether a character is a blank, ends a line, or is the zero character. -/
def isBlankOrBreak (c : Char) : Bool :=
  isBlank c || isBreak c || c.toNat = 0

/-- Whether some character of one kind stands right before one of another. -/
def hasPair (first second : Char → Bool) : List Char → Bool
  | a :: b :: rest => (first a && second b) || hasPair first second (b :: rest)
  | _ => false

/-- Whether a text begins with what means something else there. -/
def beginsIndicator (cs : List Char) : Bool :=
  let blankNext (rest : List Char) : Bool := (rest.head?.map isBlankOrBreak).getD true
  match cs with
  | [] => false
  | c :: rest =>
    indicators.contains c || ((c = '?' || c = ':' || c = '-') && blankNext rest)
      || cs.take 3 = ['-', '-', '-'] || cs.take 3 = ['.', '.', '.']

/-- Whether a text has a colon that would separate, or a mark that would begin a comment. -/
def hasIndicator (cs : List Char) : Bool :=
  hasPair (· = ':') isBlankOrBreak cs || cs.getLast? = some ':'
    || hasPair isBlankOrBreak (· = '#') cs

/-- Whether a text has what only escapes can show: other characters than the printable ones, or a
space before the end of a line. -/
def needsEscapes (cs : List Char) : Bool :=
  cs.any (!isPrintable ·) || hasPair (· = ' ') isBreak cs

/-- Whether a text of one line keeps its characters when it is written plain. -/
def canBePlain (cs : List Char) : Bool :=
  !needsEscapes cs && !cs.any isBreak && !beginsIndicator cs && !hasIndicator cs
    && cs.head? != some ' ' && cs.getLast? != some ' '

/-- Whether a text would be read as itself if it were plain. -/
def readsAsText (s : String) : Bool :=
  !isPaddedNumeral s.toList && match resolve s with
    | .text _ => true
    | _ => false

/-- A number in exactly so many hexadecimal digits. -/
def hexText (width n : Nat) : List Char :=
  (List.range width).reverse.map fun i => Scalar.upperHex (n / Nat.pow 16 i % 16)

/-- The characters that have a letter of their own after a backslash. -/
def letters : List (Char × Char) :=
  [('\x00', '0'), ('\x07', 'a'), ('\x08', 'b'), ('\t', 't'), ('\n', 'n'), ('\x0b', 'v'),
   ('\x0c', 'f'), ('\r', 'r'), ('\x1b', 'e'), ('"', '"'), ('\\', '\\'), ('\u0085', 'N'),
   ('\u00a0', '_'), ('\u2028', 'L'), ('\u2029', 'P')]

/-- How a character is written in double quotes. -/
def escapeChar (c : Char) : List Char :=
  if isPrintable c && !isBreak c && c ≠ '"' && c ≠ '\\' then [c]
  else match letters.lookup c with
    | some l => ['\\', l]
    | none =>
      if c.toNat ≤ 0xFF then '\\' :: 'x' :: hexText 2 c.toNat
      else if c.toNat ≤ 0xFFFF then '\\' :: 'u' :: hexText 4 c.toNat
      else '\\' :: 'U' :: hexText 8 c.toNat

/-- A text in double quotes. -/
def doubleQuotes (cs : List Char) : List Char :=
  '"' :: cs.flatMap escapeChar ++ ['"']

/-- A text in single quotes, in which a quote is written twice. -/
def singleQuotes (cs : List Char) : List Char :=
  '\'' :: cs.flatMap (fun c => if c = '\'' then ['\'', '\''] else [c]) ++ ['\'']

/-- How the end of a block is kept: as it is, without the break that ends it, or with all breaks. -/
def chompingMark (cs : List Char) : List Char :=
  match cs.reverse with
  | a :: b :: _ => if !isBreak a then ['-'] else if isBreak b then ['+'] else []
  | [a] => if isBreak a then ['+'] else ['-']
  | [] => ['-']

/-- A text of several lines as a block, its lines indented by `indent`. -/
def block (indent : Nat) (cs : List Char) : List Char :=
  let hint : List Char := match cs with
    | c :: _ => if c = ' ' || isBreak c then ['2'] else []
    | [] => []
  let lines := (cs.splitOn '\n').map fun l =>
    if l.isEmpty then [] else List.replicate indent ' ' ++ l
  let body := ['\n'].intercalate lines
  let body := if body.getLast? = some '\n' then body.dropLast else body
  '|' :: hint ++ chompingMark cs ++ '\n' :: body

/-- A text in a place whose lines are indented by `indent`. -/
def textLines (indent : Nat) (s : String) : List Char :=
  let cs := s.toList
  if cs.contains '\n' then
    if needsEscapes cs || cs.getLast? = some ' ' then doubleQuotes cs
    else block (indent + 2) cs
  else if readsAsText s && canBePlain cs then cs
  else if needsEscapes cs then doubleQuotes cs
  else singleQuotes cs

/-- A plain value, or a collection that is empty. -/
def scalarLines (indent : Nat) : Setting → List Char
  | .flag true => ['t', 'r', 'u', 'e']
  | .flag false => ['f', 'a', 'l', 's', 'e']
  | .integer n => Json.renderInt n
  | .text s => textLines indent s
  | .list [] => ['[', ']']
  | .table [] => ['{', '}']
  | _ => ['n', 'u', 'l', 'l']

mutual

/-- The value of a member whose name stands at column `indent`, from right after its colon. -/
def memberText (indent : Nat) : Setting → List Char
  | .list (s :: rest) => '\n' :: itemLines indent (s :: rest)
  | .table (m :: rest) =>
    '\n' :: List.replicate (indent + 2) ' ' ++ memberLines (indent + 2) (m :: rest)
  | s => ' ' :: scalarLines indent s ++ ['\n']

/-- The items of a list whose dashes stand at column `indent`. -/
def itemLines (indent : Nat) : List Setting → List Char
  | [] => []
  | s :: rest =>
    List.replicate indent ' ' ++ '-' :: ' ' :: itemText indent s ++ itemLines indent rest

/-- An item whose dash stands at column `indent`, from after the blank behind it. -/
def itemText (indent : Nat) : Setting → List Char
  | .list (s :: rest) => '\n' :: itemLines (indent + 2) (s :: rest)
  | .table (m :: rest) => memberLines (indent + 2) (m :: rest)
  | s => scalarLines indent s ++ ['\n']

/-- The members of a table at column `indent`; the first one's indentation is already there. -/
def memberLines (indent : Nat) : List (String × Setting) → List Char
  | [] => []
  | [(name, s)] => textLines indent name ++ ':' :: memberText indent s
  | (name, s) :: rest =>
    textLines indent name ++ ':' :: memberText indent s ++ List.replicate indent ' '
      ++ memberLines indent rest

end

/-- The text of a document. -/
def write (s : Setting) : String :=
  String.ofList (match s with
    | .table (m :: rest) => memberLines 0 (m :: rest)
    | .list (i :: rest) => itemLines 0 (i :: rest)
    | s => scalarLines 0 s ++ ['\n'])

end InferenceRouting.Yaml
