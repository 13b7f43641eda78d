import InferenceRouting.Number.Binary64

/-!
# JSON values

A number is an integer of the signed or unsigned 64-bit range, or a double.  The members of an
object are kept in the order of their keys, each key once: `insertMember` puts a member at its
place and replaces an earlier value of the same key, so the last of two members with one key wins.

`record?` is the reading of a value as a record with named fields: an object by its keys, an array
by position.
-/

namespace InferenceRouting

/-- A JSON number. -/
inductive Number where
  | int (value : Int)
  | real (value : Binary64)
  deriving DecidableEq, Repr

/-- A JSON value. -/
inductive Json where
  | null
  | bool (value : Bool)
  | num (value : Number)
  | str (value : String)
  | arr (items : List Json)
  | obj (members : List (String × Json))
  deriving Repr, Inhabited

namespace Json

/-- The number `n`. -/
def ofNat (n : Nat) : Json := .num (.int n)

/-- The number `n`. -/
def ofInt (n : Int) : Json := .num (.int n)

/-- A value that may be absent; `null` when it is. -/
def ofOption {α : Type} (f : α → Json) : Option α → Json
  | some a => f a
  | none => .null

/-- Puts a member at its place among members ordered by key, replacing one with the same key. -/
def insertMember (key : String) (value : Json) :
    List (String × Json) → List (String × Json)
  | [] => [(key, value)]
  | (k, v) :: rest =>
    if key < k then (key, value) :: (k, v) :: rest
    else if key = k then (key, value) :: rest
    else (k, v) :: insertMember key value rest

/-- An object from members in any order; the last of several members with one key wins. -/
def ofMembers (members : List (String × Json)) : Json :=
  .obj (members.foldl (fun acc m => insertMember m.1 m.2 acc) [])

/-- The value at `key`; `none` when the value is not an object or has no such key. -/
def get? (key : String) : Json → Option Json
  | .obj members => members.lookup key
  | _ => none

def asString? : Json → Option String
  | .str s => some s
  | _ => none

def asBool? : Json → Option Bool
  | .bool b => some b
  | _ => none

def asArray? : Json → Option (List Json)
  | .arr items => some items
  | _ => none

def asMembers? : Json → Option (List (String × Json))
  | .obj members => some members
  | _ => none

/-- An integer, as opposed to a double. -/
def asInt? : Json → Option Int
  | .num (.int n) => some n
  | _ => none

/-- A natural number not above `bound`. -/
def asNat? (bound : Nat) (j : Json) : Option Nat :=
  match j.asInt? with
  | some n => if 0 ≤ n ∧ n ≤ bound then some n.toNat else none
  | none => none

/-- A double, or the double nearest to an integer. -/
def asReal? : Json → Option Binary64
  | .num (.int n) => some (Binary64.ofInt n)
  | .num (.real x) => some x
  | _ => none

/-- An optional value: `null` is absence, anything else must be readable. -/
def asOption? {α : Type} (read : Json → Option α) : Json → Option (Option α)
  | .null => some none
  | j => (read j).map some

/-- Every item readable. -/
def asList? {α : Type} (read : Json → Option α) : Json → Option (List α)
  | .arr items => items.mapM read
  | _ => none

/-- A value without data, given by its name or as an object that maps the name to `null`. -/
def asName? : Json → Option String
  | .str s => some s
  | .obj [(s, .null)] => some s
  | _ => none

/-- Reads a value as a record with the given fields: an object by key, an array by position.  The
result gives each field's value, `none` for a field that is missing; a longer array is refused.
Unknown keys are ignored. -/
def record? (fields : List String) : Json → Option (String → Option Json)
  | .obj members => some fun name => members.lookup name
  | .arr items =>
    if items.length ≤ fields.length then some fun name => (fields.zip items).lookup name
    else none
  | _ => none

/-- Whether a record was given by position, where a missing field has no implicit value. -/
def isArray : Json → Bool
  | .arr _ => true
  | _ => false

/-- The largest unsigned 64-bit integer. -/
def maxNat64 : Nat := 18446744073709551615

/-- The largest signed 64-bit integer. -/
def maxInt64 : Int := 9223372036854775807

/-- The least signed 64-bit integer. -/
def minInt64 : Int := -9223372036854775808

/-- An unsigned 64-bit integer. -/
def asNat64? : Json → Option Nat := asNat? maxNat64

end Json

end InferenceRouting
