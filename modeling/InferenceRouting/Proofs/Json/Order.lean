import InferenceRouting.Json.Portable

/-!
# The order of an object's members

Members are put into an object one at a time.  One whose key is new only finds its place, so an
object built from members with distinct keys holds exactly these members
(`Portable.agrees_inOrder`).  One whose key is above all the others goes to the end, so members that
already stand in the order of their keys stay where they are (`Ordered.inOrder_eq`).
-/

namespace InferenceRouting.Json

variable {key : String} {value : Json} {acc members : List (String × Json)} {depth : Nat}

/-- The members an object holds after the given ones have been put into it. -/
theorem ofMembers_eq (members : List (String × Json)) :
    ofMembers members = .obj (members.foldl (fun acc m => insertMember m.1 m.2 acc) []) := rfl

/-! ## Members that come in order -/

/-- A member above all the others goes to the end. -/
theorem insertMember_above (h : ∀ m ∈ acc, m.1 < key) :
    insertMember key value acc = acc ++ [(key, value)] := by
  induction acc with
  | nil => rfl
  | cons m rest ih =>
    obtain ⟨k, v⟩ := m
    have hk : k < key := h (k, v) (by simp)
    have hne : key ≠ k := by
      rintro rfl
      exact String.lt_irrefl key hk
    have hrest := ih fun m hm => h m (by simp [hm])
    simp [insertMember, String.lt_asymm hk, hne, hrest]

/-- Members in the order of their keys, all above the ones there, are put at the end as they
stand. -/
theorem foldl_insertMember_ascending (h : (acc ++ members).Pairwise fun a b => a.1 < b.1) :
    members.foldl (fun acc m => insertMember m.1 m.2 acc) acc = acc ++ members := by
  induction members generalizing acc with
  | nil => simp
  | cons m rest ih =>
    have habove : ∀ x ∈ acc, x.1 < m.1 := fun x hx =>
      (List.pairwise_append.mp h).2.2 x hx m (by simp)
    have hnext : ((acc ++ [m]) ++ rest).Pairwise fun a b => a.1 < b.1 := by simpa using h
    rw [List.foldl_cons, insertMember_above habove, ih hnext]
    simp

/-- A value in order is what it is put into. -/
theorem Ordered.inOrder_eq {j : Json} (h : j.Ordered) : j.inOrder = j := by
  induction h with
  | null | bool | num | str => rfl
  | arr _ ih =>
    rw [inOrder, itemsInOrder_eq_map, List.map_congr_left ih, List.map_id']
  | @obj members ascending _ ih =>
    have hsame : members.map (fun m => (m.1, m.2.inOrder)) = members := by
      rw [List.map_congr_left (g := id) fun m hm => by rw [ih m hm]; rfl, List.map_id]
    rw [inOrder, membersInOrder_eq_map, hsame, ofMembers_eq,
      foldl_insertMember_ascending (by simpa using ascending), List.nil_append]

/-! ## Members with distinct keys -/

/-- A member with a new key is added, and nothing is lost. -/
theorem insertMember_new (h : key ∉ acc.map Prod.fst) :
    (insertMember key value acc).Perm ((key, value) :: acc) := by
  induction acc with
  | nil => exact List.Perm.refl _
  | cons m rest ih =>
    obtain ⟨k, v⟩ := m
    obtain ⟨hne, hrest⟩ : key ≠ k ∧ key ∉ rest.map Prod.fst := by simpa using h
    by_cases hlt : key < k
    · simp [insertMember, hlt]
    · have hplace : insertMember key value ((k, v) :: rest)
          = (k, v) :: insertMember key value rest := by simp [insertMember, hlt, hne]
      rw [hplace]
      exact ((ih hrest).cons _).trans (List.Perm.swap ..)

/-- Members with distinct new keys are all added. -/
theorem foldl_insertMember_distinct (h : ((acc ++ members).map Prod.fst).Nodup) :
    (members.foldl (fun acc m => insertMember m.1 m.2 acc) acc).Perm (acc ++ members) := by
  induction members generalizing acc with
  | nil => simp
  | cons m rest ih =>
    have hmoved : (acc ++ m :: rest).Perm (m :: acc ++ rest) := List.perm_middle
    have hkeys : ((m :: acc ++ rest).map Prod.fst).Nodup := (hmoved.map _).nodup_iff.mp h
    have hnew : m.1 ∉ acc.map Prod.fst := fun hm =>
      (List.nodup_cons.mp hkeys).1 (by simpa using Or.inl hm)
    have hput : (insertMember m.1 m.2 acc).Perm (m :: acc) := insertMember_new hnew
    have hnext : ((insertMember m.1 m.2 acc ++ rest).map Prod.fst).Nodup :=
      ((hput.append_right rest).map _).nodup_iff.mpr hkeys
    calc
      _ = rest.foldl (fun acc m => insertMember m.1 m.2 acc) (insertMember m.1 m.2 acc) := rfl
      List.Perm _ (insertMember m.1 m.2 acc ++ rest) := ih hnext
      List.Perm _ (m :: acc ++ rest) := hput.append_right rest
      List.Perm _ (acc ++ m :: rest) := hmoved.symm

/-- Putting a value in order changes nothing but the order of members. -/
theorem Portable.agrees_inOrder {j : Json} (h : j.Portable depth) : j.Agrees j.inOrder := by
  induction h with
  | null => exact .null
  | bool b => exact .bool b
  | int => exact .num _
  | str s => exact .str s
  | arr _ ih =>
    rw [inOrder, itemsInOrder_eq_map]
    exact .arr (List.forall₂_map_right_iff.mpr (List.forall₂_same.mpr ih))
  | @obj depth members distinct _ ih =>
    have hkeys : (members.map fun m => (m.1, m.2.inOrder)).map Prod.fst = members.map Prod.fst := by
      simp
    have hvalues : List.Forall₂ Agrees (members.map Prod.snd)
        ((members.map fun m => (m.1, m.2.inOrder)).map Prod.snd) := by
      rw [List.map_map, List.forall₂_map_left_iff, List.forall₂_map_right_iff, List.forall₂_same]
      exact ih
    have hdistinct : (([] ++ members.map fun m : String × Json => (m.1, m.2.inOrder)).map
        Prod.fst).Nodup := by
      rw [List.nil_append, hkeys]
      exact distinct
    rw [inOrder, membersInOrder_eq_map, ofMembers_eq]
    exact .obj hkeys.symm hvalues (foldl_insertMember_distinct hdistinct).symm

end InferenceRouting.Json
