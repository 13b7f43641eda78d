import InferenceRouting.Setting.Basic
import InferenceRouting.Setting.Scalar
import InferenceRouting.Json.Writer

/-!
# Writing TOML

A table becomes a section: a header, a line for each plain member, and after them the sections of
its inner tables.  A list of tables becomes one section per table.  Lists of two or more values stand
on a line each.  Absent values are left out.

`Toml.write?` is `none` for a tree that has no form in the format: an integer beyond the signed
64-bit range, or an absent value in a list.
-/

namespace InferenceRouting.Toml

/-- How a string is quoted. -/
structure StringStyle where
  /-- With single quotes and no escapes. -/
  literal : Bool
  /-- With three quotes. -/
  triple : Bool
  /-- Over several lines. -/
  broken : Bool
  deriving DecidableEq, Repr

/-- The longest run of a character. -/
def longestRun (c : Char) : Nat → List Char → Nat
  | _, [] => 0
  | held, d :: rest =>
    if d = c then max (held + 1) (longestRun c (held + 1) rest) else longestRun c 0 rest

/-- Whether a character needs an escape wherever it stands: a control character other than tab and
line feed. -/
def isControl (c : Char) : Bool :=
  (c.toNat < 32 && c ≠ '\t' && c ≠ '\n') || c.toNat = 127

/-- How a string is quoted.  A quote or a backslash in it makes it literal, unless it has what no
literal string can have. -/
def styleOf (cs : List Char) : StringStyle :=
  let broken := cs.contains '\n'
  let run := longestRun '\'' 0 cs
  let literal := (cs.contains '"' || cs.contains '\\') && !cs.any isControl && run < 3
    && cs.getLast? != some '\''
  ⟨literal, broken || (literal && 0 < run), broken⟩

/-- How a character of a quoted string is written. -/
def escapeChar (broken : Bool) (c : Char) : List Char :=
  if c = '\x08' then ['\\', 'b']
  else if c = '\t' then ['\\', 't']
  else if c = '\n' then (if broken then ['\n'] else ['\\', 'n'])
  else if c = '\x0c' then ['\\', 'f']
  else if c = '\r' then ['\\', 'r']
  else if c = '"' then ['\\', '"']
  else if c = '\\' then ['\\', '\\']
  else if c.toNat < 32 || c.toNat = 127 then
    ['\\', 'u', '0', '0', Scalar.upperHex (c.toNat / 16), Scalar.upperHex (c.toNat % 16)]
  else [c]

/-- A string in quotes. -/
def stringText (s : String) : List Char :=
  let cs := s.toList
  let style := styleOf cs
  let mark := if style.literal then '\'' else '"'
  let marks := if style.triple then [mark, mark, mark] else [mark]
  let body := if style.literal then cs else cs.flatMap (escapeChar style.broken)
  marks ++ (if style.broken then ['\n'] else []) ++ body ++ marks

/-- A plain value. -/
def scalarText? : Setting → Option (List Char)
  | .flag true => some ['t', 'r', 'u', 'e']
  | .flag false => some ['f', 'a', 'l', 's', 'e']
  | .integer n => if Json.minInt64 ≤ n ∧ n ≤ Json.maxInt64 then some (Json.renderInt n) else none
  | .text s => some (stringText s)
  | _ => none

/-- A value on the right of an equals sign: a plain value, or a list of such. -/
def valueText? : Setting → Option (List Char)
  | .list items => do
    match ← items.mapM scalarText? with
    | [] => some ['[', ']']
    | [item] => some ('[' :: item ++ [']'])
    | texts =>
      some ('[' :: '\n' :: texts.flatMap (fun t => List.replicate 4 ' ' ++ t ++ [',', '\n']) ++ [']'])
  | s => scalarText? s

/-- The members of every table of a list that is not empty. -/
def tables? : List Setting → Option (List (List (String × Setting)))
  | [] => none
  | items => items.mapM fun s => match s with
    | .table members => some members
    | _ => none

/-- The line of a plain member; nothing for an absent value, for a table and for a list of
tables. -/
def memberLine? (name : String) (s : Setting) : Option (List Char) :=
  match s with
  | .null => some []
  | .table _ => some []
  | .list items =>
    match tables? items with
    | some _ => some []
    | none => (valueText? s).map fun t => name.toList ++ [' ', '=', ' '] ++ t ++ ['\n']
  | s => (valueText? s).map fun t => name.toList ++ [' ', '=', ' '] ++ t ++ ['\n']

/-- The lines of the plain members of a table. -/
def plainLines? (members : List (String × Setting)) : Option (List Char) := do
  let lines ← members.mapM fun (name, s) => memberLine? name s
  some lines.flatten

/-- A path in a header. -/
def pathText (path : List String) : List Char :=
  (".".intercalate path).toList

/-- The sections of a table: its own with its header, and those of the tables in it.  `fuel` bounds
the nesting. -/
def sections? : Nat → List Char → List String → List (String × Setting) →
    Option (List (List Char))
  | 0, _, _, _ => none
  | fuel + 1, header, path, members => do
    let lines ← plainLines? members
    let inner ← members.mapM fun (name, s) => match s with
      | .table inner =>
        sections? fuel ('[' :: pathText (path ++ [name]) ++ [']', '\n']) (path ++ [name]) inner
      | .list items =>
        match tables? items with
        | some tables =>
          (tables.mapM (sections? fuel ('[' :: '[' :: pathText (path ++ [name]) ++ [']', ']', '\n'])
            (path ++ [name]))).map List.flatten
        | none => some []
      | _ => some []
    some ((header ++ lines) :: inner.flatten)

mutual

/-- How deep the tables of a tree are nested. -/
def depth : Setting → Nat
  | .list items => depthOfItems items + 1
  | .table members => depthOfMembers members + 1
  | _ => 0

/-- The largest depth of trees. -/
def depthOfItems : List Setting → Nat
  | [] => 0
  | s :: rest => max (depth s) (depthOfItems rest)

/-- The largest depth of the members of a table. -/
def depthOfMembers : List (String × Setting) → Nat
  | [] => 0
  | (_, s) :: rest => max (depth s) (depthOfMembers rest)

end

/-- The text of a document; sections are separated by empty lines. -/
def write? (s : Setting) : Option String :=
  match s with
  | .table members => do
    let sections ← sections? (depth s + 1) [] [] members
    some (String.ofList (['\n'].intercalate (sections.filter (!·.isEmpty))))
  | _ => none

end InferenceRouting.Toml
