import InferenceRouting.Json.Value

/-!
# Settings as trees

Whatever a setting is written in, it is read as a tree of tables, lists and scalars.  Trees are laid
over each other: tables are merged key by key, anything else is replaced.  A table keeps its members
in the order in which they were added, each name once.

`Setting.record?` is the reading of a tree as a record with named fields: a table by its names, a
list by position.
-/

namespace InferenceRouting

/-- A tree of settings. -/
inductive Setting where
  | null
  | flag (value : Bool)
  | integer (value : Int)
  /-- A number that is not written as an integer.  No setting takes one, so its value is not kept. -/
  | fraction
  | text (value : String)
  | list (items : List Setting)
  | table (members : List (String × Setting))
  deriving Repr, Inhabited

namespace Setting

/-- A natural number. -/
def ofNat (n : Nat) : Setting := .integer n

/-- A value that may be absent. -/
def ofOption {α : Type} (f : α → Setting) : Option α → Setting
  | some a => f a
  | none => .null

/-- Puts a member into a table, in place of one with the same name. -/
def insert (name : String) (value : Setting) :
    List (String × Setting) → List (String × Setting)
  | [] => [(name, value)]
  | (k, v) :: rest => if k = name then (name, value) :: rest else (k, v) :: insert name value rest

/-- A table of members of which the last with a name counts. -/
def ofMembers (members : List (String × Setting)) : Setting :=
  .table (members.foldl (fun acc m => insert m.1 m.2 acc) [])

mutual

/-- A tree with another laid over it. -/
def merge (base : Setting) : Setting → Setting
  | .table upper =>
    match base with
    | .table members => .table (mergeMembers members upper)
    | _ => .table upper
  | upper => upper

/-- The members of a table with those of another laid over them. -/
def mergeMembers (members : List (String × Setting)) :
    List (String × Setting) → List (String × Setting)
  | [] => members
  | (name, value) :: rest =>
    let value := match members.lookup name with
      | some base => merge base value
      | none => value
    mergeMembers (insert name value members) rest

end

mutual

/-- A JSON value as a tree. -/
def ofJson : Json → Setting
  | .null => .null
  | .bool b => .flag b
  | .num (.int n) => .integer n
  | .num (.real _) => .fraction
  | .str s => .text s
  | .arr items => .list (ofItems items)
  | .obj members => .table (ofJsonMembers members)

/-- JSON values as trees. -/
def ofItems : List Json → List Setting
  | [] => []
  | j :: rest => ofJson j :: ofItems rest

/-- The members of a JSON object as those of a table. -/
def ofJsonMembers : List (String × Json) → List (String × Setting)
  | [] => []
  | (k, j) :: rest => (k, ofJson j) :: ofJsonMembers rest

end

mutual

/-- A tree as a JSON value. -/
def toJson : Setting → Json
  | .null => .null
  | .flag b => .bool b
  | .integer n => .ofInt n
  | .fraction => .null
  | .text s => .str s
  | .list items => .arr (toItems items)
  | .table members => .ofMembers (toJsonMembers members)

/-- Trees as JSON values. -/
def toItems : List Setting → List Json
  | [] => []
  | s :: rest => toJson s :: toItems rest

/-- The members of a table as those of a JSON object. -/
def toJsonMembers : List (String × Setting) → List (String × Json)
  | [] => []
  | (k, s) :: rest => (k, toJson s) :: toJsonMembers rest

end

def asText? : Setting → Option String
  | .text s => some s
  | _ => none

def asFlag? : Setting → Option Bool
  | .flag b => some b
  | _ => none

/-- A natural number not above `bound`. -/
def asNat? (bound : Nat) : Setting → Option Nat
  | .integer n => if 0 ≤ n ∧ n ≤ bound then some n.toNat else none
  | _ => none

/-- The largest unsigned 32-bit integer. -/
def maxNat32 : Nat := 4294967295

/-- An optional value: `null` is absence, anything else must be readable. -/
def asOption? {α : Type} (read : Setting → Option α) : Setting → Option (Option α)
  | .null => some none
  | s => (read s).map some

/-- Every item readable. -/
def asList? {α : Type} (read : Setting → Option α) : Setting → Option (List α)
  | .list items => items.mapM read
  | _ => none

/-- The fields of a table: the value of each name, `none` for a name that is missing. -/
abbrev Fields := String → Option Setting

/-- A tree that must be a table. -/
def table? : Setting → Option Fields
  | .table members => some fun name => members.lookup name
  | _ => none

/-- Reads a tree as a record with the given fields: a table by name, a list by position.  A longer
list is refused, unknown names are ignored. -/
def record? (names : List String) : Setting → Option Fields
  | .table members => some fun name => members.lookup name
  | .list items =>
    if items.length ≤ names.length then some fun name => (names.zip items).lookup name else none
  | _ => none

/-- The value of a field that must be there. -/
def Fields.required {α : Type} (fields : Fields) (name : String) (read : Setting → Option α) :
    Option α :=
  (fields name).bind read

/-- The value of a field, or the default when it is missing.  One that is there must be readable. -/
def Fields.optional {α : Type} (fields : Fields) (name : String) (read : Setting → Option α)
    (default : α) : Option α :=
  match fields name with
  | some s => read s
  | none => some default

/-- A time in milliseconds, written in whole seconds. -/
def ofMillis (ms : Nat) : Setting :=
  .ofNat (ms / 1000)

/-- A time in whole seconds, in milliseconds. -/
def asMillis? (s : Setting) : Option Nat :=
  (s.asNat? Json.maxNat64).map (· * 1000)

end Setting

end InferenceRouting
