import InferenceRouting.Setting.Basic

/-!
# TOML: the tables of a document

A document names its tables in headers and its values by keys of several parts.  What a name stands
for may be completed later only in the ways the format allows: a table that was merely passed
through by a longer header may get a header of its own, a table made by a key of several parts may
be extended by such keys in the same section, and a list of tables grows by one table per header.
Everything else is a second definition, which is refused.
-/

namespace InferenceRouting.Toml

/-- What a name stands for. -/
inductive Entry where
  | value (setting : Setting)
  /-- A table, without a header of its own if it is `implicit`; `dotted` if a key of several parts
  made it. -/
  | table (implicit dotted : Bool) (members : List (String × Entry))
  /-- A list of tables. -/
  | tables (items : List (List (String × Entry)))

/-- The members of a table. -/
abbrev Members := List (String × Entry)

namespace Members

/-- Puts a member into a table, in place of one with the same name. -/
def insert (name : String) (entry : Entry) : Members → Members
  | [] => [(name, entry)]
  | (k, e) :: rest => if k = name then (name, entry) :: rest else (k, e) :: insert name entry rest

/-- Changes the table at the end of a path.  Tables that are missing on the way are made; of a list
of tables the last one is meant. -/
def change (dotted : Bool) (f : Members → Option Members) : List String → Members → Option Members
  | [], members => f members
  | name :: path, members =>
    match members.lookup name with
    | none => do
      let inner ← change dotted f path []
      some (insert name (.table true dotted inner) members)
    | some (.value _) => none
    | some (.tables items) => do
      let last ← items.getLast?
      let inner ← change dotted f path last
      some (insert name (.tables (items.dropLast ++ [inner])) members)
    | some (.table implicit isDotted inner) =>
      if dotted && (!implicit || (path.isEmpty && !isDotted)) then none
      else do
        let inner ← change dotted f path inner
        some (insert name (.table implicit isDotted inner) members)

/-- Gives a name to a value, once. -/
def define (name : String) (value : Setting) (members : Members) : Option Members :=
  match members.lookup name with
  | none => some (members ++ [(name, .value value)])
  | some _ => none

/-- Begins the table with a name. -/
def openTable (name : String) (members : Members) : Option Members :=
  match members.lookup name with
  | none => some (members ++ [(name, .table false false [])])
  | some (.table true false inner) => some (insert name (.table false false inner) members)
  | some _ => none

/-- Adds a table to the list with a name. -/
def extendTables (name : String) (members : Members) : Option Members :=
  match members.lookup name with
  | none => some (members ++ [(name, .tables [[]])])
  | some (.tables items) => some (insert name (.tables (items ++ [[]])) members)
  | some _ => none

/-- A path that is not empty as its beginning and its last name. -/
def splitLast? (path : List String) : Option (List String × String) :=
  path.getLast?.map fun last => (path.dropLast, last)

/-- Gives the last name of a key to a value, in the tables that the other parts name. -/
def defineAt (key : List String) (value : Setting) (members : Members) : Option Members := do
  let (path, name) ← splitLast? key
  change true (define name value) path members

end Members

mutual

/-- What a name stands for, as a tree. -/
def Entry.toSetting : Entry → Setting
  | .value s => s
  | .table _ _ members => .table (membersToSettings members)
  | .tables items => .list (tablesToSettings items)

/-- The members of a table, as those of a tree. -/
def membersToSettings : List (String × Entry) → List (String × Setting)
  | [] => []
  | (k, e) :: rest => (k, e.toSetting) :: membersToSettings rest

/-- A list of tables, as trees. -/
def tablesToSettings : List (List (String × Entry)) → List Setting
  | [] => []
  | members :: rest => .table (membersToSettings members) :: tablesToSettings rest

end

end InferenceRouting.Toml
