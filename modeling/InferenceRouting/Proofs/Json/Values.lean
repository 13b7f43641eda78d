import InferenceRouting.Json.Value
import InferenceRouting.Proofs.Keyed

/-!
# One value of a document

What can be looked up in an object after a member has been put in or taken out: at the key of the
member the new state, and at every other key what was there (`lookup_insertMember`).  And what a
value is that can be read as a text, a natural number or a name.
-/

namespace InferenceRouting.Json

/-- An object with a value at a key, in place of the one there; what is no object stays. -/
def put (j : Json) (key : String) (value : Json) : Json :=
  match j with
  | .obj members => .obj (insertMember key value members)
  | j => j

/-- An object without a key; what is no object stays. -/
def erase (j : Json) (key : String) : Json :=
  match j with
  | .obj members => .obj (members.filter fun m => m.1 ≠ key)
  | j => j

variable {key other : String} {value j : Json} {members : List (String × Json)} {bound n : Nat}
  {s : String}

/-- The first member with a key is the one that is found. -/
theorem lookup_cons (key other : String) (value : Json) (members : List (String × Json)) :
    ((key, value) :: members).lookup other =
      if other = key then some value else members.lookup other := by
  by_cases h : other = key
  · simp [h]
  · have hne : (other == key) = false := beq_false_of_ne h
    simp [List.lookup_cons, h, hne]

/-- What is put at a key is found there, and everything else where it was. -/
theorem lookup_insertMember (key other : String) (value : Json) (members : List (String × Json)) :
    (insertMember key value members).lookup other =
      if other = key then some value else members.lookup other := by
  induction members with
  | nil => exact lookup_cons key other value []
  | cons m rest ih =>
      obtain ⟨k, v⟩ := m
      unfold insertMember
      by_cases hlt : key < k
      · rw [if_pos hlt]
        exact lookup_cons key other value _
      · rw [if_neg hlt]
        by_cases hkey : key = k
        · subst hkey
          rw [if_pos rfl, lookup_cons, lookup_cons]
          by_cases hother : other = key
          · rw [if_pos hother, if_pos hother]
          · rw [if_neg hother, if_neg hother, if_neg hother]
        · rw [if_neg hkey, lookup_cons, ih, lookup_cons]
          by_cases hother : other = key
          · subst hother
            rw [if_neg hkey, if_pos rfl, if_pos rfl]
          · rw [if_neg hother, if_neg hother]

/-- A member that was put is found. -/
theorem get?_put_self (key : String) (value : Json) (members : List (String × Json)) :
    ((Json.obj members).put key value).get? key = some value :=
  (lookup_insertMember key key value members).trans (if_pos rfl)

/-- The other members are found as before. -/
theorem get?_put_of_ne (h : other ≠ key) (value j : Json) :
    (j.put key value).get? other = j.get? other := by
  cases j with
  | obj members => exact (lookup_insertMember key other value members).trans (if_neg h)
  | null | bool | num | str | arr => rfl

/-- The members that were not erased are found as before. -/
theorem get?_erase_of_ne (h : other ≠ key) (j : Json) :
    (j.erase key).get? other = j.get? other := by
  cases j with
  | obj members => exact Keyed.lookup_filter_of_ne h members
  | null | bool | num | str | arr => rfl

/-- A member that was erased is not found. -/
theorem get?_erase_self (key : String) (j : Json) : (j.erase key).get? key = none := by
  cases j with
  | obj members => exact Keyed.lookup_filter_self key members
  | null | bool | num | str | arr => rfl

/-- Only a text is read as one. -/
theorem asString?_eq_some_iff : j.asString? = some s ↔ j = .str s := by
  cases j <;> simp [asString?]

/-- Only a natural number within the bound is read as one. -/
theorem asNat?_eq_some_iff : j.asNat? bound = some n ↔ n ≤ bound ∧ j = .ofNat n := by
  unfold asNat? ofNat
  cases j with
  | num number =>
      cases number with
      | int v =>
          simp only [asInt?, num.injEq, Number.int.injEq]
          split
          · rename_i hv
            rw [Option.some.injEq]
            omega
          · rename_i hv
            simp only [reduceCtorEq, false_iff]
            omega
      | real x => simp [asInt?]
  | null | bool | str | arr | obj => simp [asInt?]

/-- A name is a text, or the only key of an object that has nothing to say about it. -/
theorem asName?_eq_some_iff : j.asName? = some s ↔ j = .str s ∨ j = .obj [(s, .null)] := by
  unfold asName?
  split
  · simp
  · simp
  · rename_i hstr hobj
    simp only [reduceCtorEq, false_iff]
    rintro (rfl | rfl)
    · exact hstr s rfl
    · exact hobj s rfl

end InferenceRouting.Json
