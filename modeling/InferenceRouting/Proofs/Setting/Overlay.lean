import InferenceRouting.Setting.Basic

/-!
# Trees laid over each other

A tree that names, table by table, what the tree below it names hides that tree altogether
(`merge_of_covers`).  A whole configuration is such a tree over the defaults.
-/

namespace InferenceRouting.Setting

mutual

/-- Whether a tree has at least the tables of another, each with the same names in the same order
and each name once.  What is no table is replaced by anything, so nothing is asked there. -/
def covers (base : Setting) : Setting → Bool
  | .table upper =>
    match base with
    | .table lower => (upper.map Prod.fst).Nodup && coversMembers lower upper
    | _ => true
  | _ => true

/-- Whether members have the names of others, and each covers its namesake. -/
def coversMembers (lower : List (String × Setting)) : List (String × Setting) → Bool
  | [] => lower.isEmpty
  | (name, value) :: rest =>
    match lower with
    | (below, base) :: lower => below == name && covers base value && coversMembers lower rest
    | [] => false

end

/-- A member whose name is not among the first members is put in place after them. -/
theorem insert_append {name : String} {done : List (String × Setting)}
    (hfresh : name ∉ done.map Prod.fst) (value : Setting) (rest : List (String × Setting)) :
    insert name value (done ++ rest) = done ++ insert name value rest := by
  induction done with
  | nil => rfl
  | cons m done ih =>
    obtain ⟨k, v⟩ := m
    obtain ⟨hk, hdone⟩ : name ≠ k ∧ name ∉ done.map Prod.fst := by simpa using hfresh
    simp only [List.cons_append, insert, if_neg (Ne.symm hk), ih hdone]

mutual

/-- A tree that covers another hides it. -/
theorem merge_of_covers (base : Setting) : ∀ upper : Setting, covers base upper = true →
    merge base upper = upper
  | .table upper, h => by
    cases base with
    | table lower =>
      simp only [covers, Bool.and_eq_true, decide_eq_true_eq] at h
      rw [merge]
      exact congrArg Setting.table
        (mergeMembers_of_covers [] lower upper (by simpa using h.1) h.2)
    | _ => rfl
  | .null, _ | .flag _, _ | .integer _, _ | .fraction, _ | .text _, _ | .list _, _ => by
    simp only [merge]

/-- Members laid over those they cover replace them one by one; `done` are those already in
place. -/
theorem mergeMembers_of_covers (done lower : List (String × Setting)) :
    ∀ upper : List (String × Setting), ((done ++ upper).map Prod.fst).Nodup →
      coversMembers lower upper = true → mergeMembers (done ++ lower) upper = done ++ upper
  | [], _, h => by
    obtain rfl : lower = [] := by simpa [coversMembers] using h
    rfl
  | (name, value) :: rest, hnodup, h => by
    cases lower with
    | nil => simp [coversMembers] at h
    | cons m lower =>
      obtain ⟨below, base⟩ := m
      simp only [coversMembers, Bool.and_eq_true, beq_iff_eq] at h
      obtain ⟨⟨rfl, hvalue⟩, hrest⟩ := h
      have hfresh : below ∉ done.map Prod.fst := by
        intro hmem
        rw [List.map_append, List.nodup_append] at hnodup
        exact hnodup.2.2 _ hmem _ (List.mem_cons_self ..) rfl
      have hplace : insert below value (done ++ (below, base) :: lower)
          = (done ++ [(below, value)]) ++ lower := by
        rw [insert_append hfresh, insert, if_pos rfl, List.append_assoc, List.singleton_append]
      have hbelow : (done ++ (below, base) :: lower).lookup below = some base := by
        refine List.lookup_eq_some_iff.mpr ⟨done, lower, rfl, fun m hm => bne_iff_ne.mpr ?_⟩
        rintro rfl
        exact hfresh (List.mem_map_of_mem hm)
      simp only [mergeMembers, hbelow, merge_of_covers base value hvalue, hplace]
      rw [mergeMembers_of_covers (done ++ [(below, value)]) lower rest (by simpa using hnodup) hrest,
        List.append_assoc, List.singleton_append]

end

end InferenceRouting.Setting
