import Mathlib.Data.List.Forall2
import InferenceRouting.Json.Value

/-!
# Values that survive the wire

`Json.Portable depth j` says that `j` can be written and read again without loss: its numbers are
integers of the signed or unsigned 64-bit range, no object has a key twice, and its arrays and
objects are at most `depth` within each other.

An object is kept in the order of its keys.  `Json.Ordered` says so of every object in a value,
`Json.inOrder` puts a value into that form, and `Json.Agrees` compares two values without regard to
the order of their members.
-/

namespace InferenceRouting.Json

/-- Integers that fit 64 bits, each key once in every object, and at most the given number of
arrays and objects within each other. -/
inductive Portable : Nat → Json → Prop where
  | null {depth : Nat} : Portable depth .null
  | bool {depth : Nat} (b : Bool) : Portable depth (.bool b)
  | int {depth : Nat} {n : Int} (low : minInt64 ≤ n) (high : n ≤ maxNat64) :
      Portable depth (.num (.int n))
  | str {depth : Nat} (s : String) : Portable depth (.str s)
  | arr {depth : Nat} {items : List Json} (within : ∀ j ∈ items, Portable depth j) :
      Portable (depth + 1) (.arr items)
  | obj {depth : Nat} {members : List (String × Json)} (distinct : (members.map Prod.fst).Nodup)
      (within : ∀ m ∈ members, Portable depth m.2) : Portable (depth + 1) (.obj members)

/-- The members of every object stand in the order of their keys, each key once. -/
inductive Ordered : Json → Prop where
  | null : Ordered .null
  | bool (b : Bool) : Ordered (.bool b)
  | num (n : Number) : Ordered (.num n)
  | str (s : String) : Ordered (.str s)
  | arr {items : List Json} (within : ∀ j ∈ items, Ordered j) : Ordered (.arr items)
  | obj {members : List (String × Json)} (ascending : members.Pairwise fun a b => a.1 < b.1)
      (within : ∀ m ∈ members, Ordered m.2) : Ordered (.obj members)

mutual

/-- The value with the members of every object put in the order of their keys. -/
def inOrder : Json → Json
  | .null => .null
  | .bool b => .bool b
  | .num n => .num n
  | .str s => .str s
  | .arr items => .arr (itemsInOrder items)
  | .obj members => ofMembers (membersInOrder members)

/-- The items, each put in order. -/
def itemsInOrder : List Json → List Json
  | [] => []
  | j :: rest => j.inOrder :: itemsInOrder rest

/-- The members where they stand, the value of each put in order. -/
def membersInOrder : List (String × Json) → List (String × Json)
  | [] => []
  | (k, v) :: rest => (k, v.inOrder) :: membersInOrder rest

end

/-- The same value, up to the order in which the members of an object stand. -/
inductive Agrees : Json → Json → Prop where
  | null : Agrees .null .null
  | bool (b : Bool) : Agrees (.bool b) (.bool b)
  | num (n : Number) : Agrees (.num n) (.num n)
  | str (s : String) : Agrees (.str s) (.str s)
  | arr {xs ys : List Json} (items : List.Forall₂ Agrees xs ys) : Agrees (.arr xs) (.arr ys)
  | obj {xs ys zs : List (String × Json)} (keys : xs.map Prod.fst = ys.map Prod.fst)
      (values : List.Forall₂ Agrees (xs.map Prod.snd) (ys.map Prod.snd)) (order : ys.Perm zs) :
      Agrees (.obj xs) (.obj zs)

attribute [simp] Portable.null Portable.bool Portable.str Ordered.null Ordered.bool Ordered.num
  Ordered.str

variable {depth : Nat} {items : List Json} {members : List (String × Json)}

/-- A portable integer is one of 64 bits. -/
@[simp]
theorem portable_int_iff {n : Int} :
    Portable depth (.num (.int n)) ↔ minInt64 ≤ n ∧ n ≤ maxNat64 :=
  ⟨fun | .int low high => ⟨low, high⟩, fun h => .int h.1 h.2⟩

/-- An array is portable when its items are, one level less deep. -/
@[simp]
theorem portable_arr_iff : Portable (depth + 1) (.arr items) ↔ ∀ j ∈ items, Portable depth j :=
  ⟨fun | .arr within => within, .arr⟩

/-- An object is portable when its keys differ and its values are portable, one level less deep. -/
@[simp]
theorem portable_obj_iff :
    Portable (depth + 1) (.obj members)
      ↔ (members.map Prod.fst).Nodup ∧ ∀ m ∈ members, Portable depth m.2 :=
  ⟨fun | .obj distinct within => ⟨distinct, within⟩, fun h => .obj h.1 h.2⟩

/-- An array is in order when its items are. -/
@[simp]
theorem ordered_arr_iff : Ordered (.arr items) ↔ ∀ j ∈ items, j.Ordered :=
  ⟨fun | .arr within => within, .arr⟩

/-- An object is in order when its keys ascend and its values are in order. -/
@[simp]
theorem ordered_obj_iff :
    Ordered (.obj members)
      ↔ (members.Pairwise fun a b => a.1 < b.1) ∧ ∀ m ∈ members, m.2.Ordered :=
  ⟨fun | .obj ascending within => ⟨ascending, within⟩, fun h => .obj h.1 h.2⟩

@[simp]
theorem itemsInOrder_eq_map (items : List Json) : itemsInOrder items = items.map inOrder := by
  induction items with
  | nil => simp [itemsInOrder]
  | cons j rest ih => simp [itemsInOrder, ih]

@[simp]
theorem membersInOrder_eq_map (members : List (String × Json)) :
    membersInOrder members = members.map fun m => (m.1, m.2.inOrder) := by
  induction members with
  | nil => simp [membersInOrder]
  | cons m rest ih => simp [membersInOrder, ih]

end InferenceRouting.Json
