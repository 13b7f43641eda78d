import InferenceRouting.Environment
import InferenceRouting.Setting.Toml.Scalar
import InferenceRouting.Text.Blank

/-!
# Settings in environment variables

A variable whose name begins with `FLEET_`, in any case, is a setting.  Two underscores separate the
names of the tables that lead to it.  Its text is a number, a flag, a quoted text, a list in square
brackets or a table in braces; whatever is none of these is taken as a text.
-/

namespace InferenceRouting.Variable

/-- Space, tab, line feed, form feed and carriage return. -/
def isSpace (c : Char) : Bool :=
  c = ' ' || c = '\t' || c = '\n' || c = '\x0c' || c = '\r'

/-- The rest after white space. -/
def skipSpace (cs : List Char) : List Char :=
  cs.dropWhile isSpace

/-- Whether a character belongs to a value without quotes. -/
def isBare (c : Char) : Bool :=
  !([',', '{', '}', '[', ']'].contains c)

/-- Whether a character may stand in a name without quotes. -/
def isNameChar (c : Char) : Bool :=
  c.isAlphanum || c = '_' || c = '-'

/-- A value without quotes: a number if it is spelled like one, else a text. -/
def bare (token : List Char) : Setting :=
  let cs := Blank.trimChars token
  if cs.contains '.' && Scalar.isDecimal cs then .fraction
  else match Decimal.parse? Json.maxNat64 cs with
    | some n => .ofNat n
    | none =>
      match Scalar.negative? cs with
      | some n => .integer n
      | none => .text (String.ofList cs)

/-- A name inside a table. -/
def name? (cs : List Char) : Option (String × List Char) :=
  match cs with
  | '"' :: rest => (Toml.quoted (cs.length + 1) rest).map fun (s, rest) => (String.ofList s, rest)
  | _ =>
    let s := cs.takeWhile isNameChar
    if s.isEmpty then none else some (String.ofList s, cs.dropWhile isNameChar)

mutual

/-- A value with white space around it. -/
def value? : Nat → List Char → Option (Setting × List Char)
  | 0, _ => none
  | fuel + 1, cs => do
    let (value, rest) ← match skipSpace cs with
      | 't' :: 'r' :: 'u' :: 'e' :: rest => some (.flag true, rest)
      | 'f' :: 'a' :: 'l' :: 's' :: 'e' :: rest => some (.flag false, rest)
      | '[' :: rest => (items? fuel rest).map fun (items, rest) => (.list items, rest)
      | '{' :: rest => (members? fuel rest).map fun (ms, rest) => (.ofMembers ms, rest)
      | '"' :: rest => (Toml.quoted (rest.length + 1) rest).map fun (s, rest) =>
          (.text (String.ofList s), rest)
      | '\'' :: c :: '\'' :: rest => some (.text (String.ofList [c]), rest)
      | '\'' :: _ => none
      | rest => some (bare (rest.takeWhile isBare), rest.dropWhile isBare)
    some (value, skipSpace rest)

/-- The items of a list up to its end. -/
def items? : Nat → List Char → Option (List Setting × List Char)
  | 0, _ => none
  | fuel + 1, cs =>
    match cs with
    | ']' :: rest => some ([], rest)
    | _ => do
      let (item, rest) ← value? fuel cs
      match rest with
      | ',' :: rest =>
        let (items, rest) ← items? fuel rest
        some (item :: items, rest)
      | ']' :: rest => some ([item], rest)
      | _ => none

/-- The members of a table up to its end. -/
def members? : Nat → List Char → Option (List (String × Setting) × List Char)
  | 0, _ => none
  | fuel + 1, cs =>
    match cs with
    | '}' :: rest => some ([], rest)
    | _ => do
      let (name, rest) ← name? (skipSpace cs)
      let '=' :: rest := skipSpace rest | none
      let (value, rest) ← value? fuel rest
      match rest with
      | ',' :: rest =>
        let (members, rest) ← members? fuel rest
        some ((name, value) :: members, rest)
      | '}' :: rest => some ([(name, value)], rest)
      | _ => none

end

/-- The value of a variable's text. -/
def read (text : String) : Setting :=
  match value? (text.toList.length + 1) text.toList with
  | some (value, []) => value
  | _ => .text text

/-- What the names of the variables begin with, in lower case. -/
def beginning : List Char :=
  "fleet_".toList

/-- A text split at points and at pairs of underscores. -/
def splitName : List Char → List (List Char)
  | [] => [[]]
  | '.' :: rest => [] :: splitName rest
  | '_' :: '_' :: rest => [] :: splitName rest
  | c :: rest =>
    match splitName rest with
    | part :: parts => (c :: part) :: parts
    | [] => [[c]]

/-- The path of the setting that a variable holds; `none` for other variables. -/
def path? (name : String) : Option (List String) :=
  let cs := name.toList.map Char.toLower
  if beginning.isPrefixOf cs then
    let parts := splitName (cs.drop beginning.length)
    if parts.any List.isEmpty then none else some (parts.map String.ofList)
  else none

/-- A setting inside the tables that lead to it. -/
def nest (value : Setting) : List String → Setting
  | [] => value
  | name :: rest => .table [(name, nest value rest)]

/-- The tree of the variables of an environment. -/
def tree (env : Environment) : Setting :=
  env.foldl (fun acc (name, text) =>
    match path? name with
    | some path => acc.merge (nest (read text) path)
    | none => acc) (.table [])

end InferenceRouting.Variable
