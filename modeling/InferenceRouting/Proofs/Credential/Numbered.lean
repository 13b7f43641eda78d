import InferenceRouting.Credential.Slot
import InferenceRouting.Proofs.Keyed

/-!
# Numbered variables

A variable belongs to an entry by its name: the common beginning and a number, or that and the
ending of model variables.  `entryNumber?_secretName` and `entryNumber?_modelName` read the two kinds
of names, which never meet (`secretName_ne_modelName`).

The values are kept in the order of their numbers.  When no number occurs twice, they are therefore
the same in whatever order the environment lists its variables (`numberedValues_eq`).  The search for
a gap finds the first number that is missing (`missingFrom?_spec`), and none when all are there.
-/

namespace InferenceRouting.Credential

variable {m n : Nat} {value : String} {l values : List (Nat × String)} {env : Environment}

/-! ## Names -/

theorem digits_injective (h : Decimal.digits m = Decimal.digits n) : m = n := by
  rw [← Decimal.value_digits m, h, Decimal.value_digits]

theorem secretName_injective (h : secretName m = secretName n) : m = n := by
  have hlist := congrArg String.toList h
  simp only [secretName, String.toList_ofList] at hlist
  exact digits_injective (List.append_cancel_left hlist)

theorem modelName_injective (h : modelName m = modelName n) : m = n := by
  have hlist := congrArg String.toList h
  simp only [modelName, String.toList_ofList, List.append_assoc] at hlist
  exact digits_injective (List.append_cancel_right (List.append_cancel_left hlist))

/-- The ending of model variables is no part of a numeral. -/
theorem not_suffix_digits (n : Nat) : ¬modelEnding.toList <:+ Decimal.digits n := by
  intro hsuffix
  have hmem : '_' ∈ Decimal.digits n := hsuffix.subset (by decide)
  exact absurd (Decimal.all_isDigit_digits n '_' hmem) (by decide)

/-- No variable is that of a secret and that of a model. -/
theorem secretName_ne_modelName (m n : Nat) : secretName m ≠ modelName n := by
  intro h
  have hlist := congrArg String.toList h
  simp only [secretName, modelName, String.toList_ofList, List.append_assoc] at hlist
  refine not_suffix_digits m ?_
  rw [List.append_cancel_left hlist]
  exact List.suffix_append _ _

/-- What follows the common beginning decides about the number. -/
theorem entryNumber?_append (rest : List Char) :
    entryNumber? (String.ofList (numberedName.toList ++ rest)) =
      if modelEnding.toList.isSuffixOf rest then none
      else (Decimal.parse? Json.maxNat64 rest).filter (1 ≤ ·) := by
  have hprefix : numberedName.toList.isPrefixOf (numberedName.toList ++ rest) = true :=
    List.isPrefixOf_iff_prefix.mpr (List.prefix_append _ _)
  have hrest : (numberedName.toList ++ rest).drop numberedName.length = rest := by
    rw [← String.length_toList]
    exact List.drop_left
  simp only [entryNumber?, String.toList_ofList, hprefix, hrest, if_true]
  split
  · rfl
  · cases Decimal.parse? Json.maxNat64 rest with
    | none => rfl
    | some n => simp [Option.filter]

/-- The number of an entry is read from the name of its variable. -/
theorem entryNumber?_secretName (hpos : 1 ≤ n) (hle : n ≤ Json.maxNat64) :
    entryNumber? (secretName n) = some n := by
  have hending : modelEnding.toList.isSuffixOf (Decimal.digits n) = false := by
    rw [← Bool.not_eq_true, List.isSuffixOf_iff_suffix]
    exact not_suffix_digits n
  rw [secretName, entryNumber?_append, hending, Decimal.parse?_digits hle]
  simp [hpos]

/-- A model variable has no number. -/
theorem entryNumber?_modelName (n : Nat) : entryNumber? (modelName n) = none := by
  have hending : modelEnding.toList.isSuffixOf (Decimal.digits n ++ modelEnding.toList) = true :=
    List.isSuffixOf_iff_suffix.mpr (List.suffix_append _ _)
  rw [modelName, List.append_assoc, entryNumber?_append, hending, if_pos rfl]

/-! ## Values by number -/

/-- The number and the value of a variable, if it holds a secret. -/
def numbered? (b : String × String) : Option (Nat × String) :=
  (entryNumber? b.1).map fun n => (n, b.2)

/-- Ascending numbers, each of which occurs once. -/
def Ascending (l : List (Nat × String)) : Prop :=
  l.Pairwise fun a b => a.1 < b.1

/-- The values with that of one more variable. -/
def noteVariable (l : List (Nat × String)) (b : String × String) : List (Nat × String) :=
  match numbered? b with
  | some (n, value) => insertNumbered n value l
  | none => l

theorem numberedValues_eq_foldl (env : Environment) :
    numberedValues env = env.foldl noteVariable [] := by
  unfold numberedValues
  congr 1
  funext l b
  obtain ⟨name, value⟩ := b
  unfold noteVariable numbered?
  dsimp only
  cases entryNumber? name with
  | none => rfl
  | some n => rfl

/-- A new number finds its place among the others, and nothing is lost. -/
theorem insertNumbered_perm (h : n ∉ l.map Prod.fst) :
    (insertNumbered n value l).Perm ((n, value) :: l) := by
  induction l with
  | nil => exact .refl _
  | cons b rest ih =>
      obtain ⟨k, v⟩ := b
      simp only [List.map_cons, List.mem_cons, not_or] at h
      unfold insertNumbered
      by_cases hlt : n < k
      · rw [if_pos hlt]
      · rw [if_neg hlt, if_neg h.1]
        exact ((ih h.2).cons (k, v)).trans (List.Perm.swap _ _ _)

theorem mem_of_insertNumbered {b : Nat × String} (h : b ∈ insertNumbered n value l) :
    b = (n, value) ∨ b ∈ l := by
  induction l with
  | nil => exact .inl (List.mem_singleton.mp h)
  | cons c rest ih =>
      obtain ⟨k, v⟩ := c
      unfold insertNumbered at h
      by_cases hlt : n < k
      · rw [if_pos hlt] at h
        exact List.mem_cons.mp h
      · rw [if_neg hlt] at h
        by_cases heq : n = k
        · rw [if_pos heq] at h
          exact (List.mem_cons.mp h).imp_right (List.mem_cons_of_mem _)
        · rw [if_neg heq] at h
          rcases List.mem_cons.mp h with rfl | hrest
          · exact .inr List.mem_cons_self
          · exact (ih hrest).imp_right (List.mem_cons_of_mem _)

/-- The numbers stay in order. -/
theorem Ascending.insertNumbered (h : Ascending l) (n : Nat) (value : String) :
    Ascending (insertNumbered n value l) := by
  induction l with
  | nil => exact List.pairwise_singleton _ _
  | cons b rest ih =>
      obtain ⟨k, v⟩ := b
      obtain ⟨hk, hrest⟩ := List.pairwise_cons.mp h
      unfold Credential.insertNumbered
      by_cases hlt : n < k
      · rw [if_pos hlt]
        refine List.pairwise_cons.mpr ⟨fun c hc => ?_, h⟩
        rcases List.mem_cons.mp hc with rfl | hc
        · exact hlt
        · have := hk c hc
          omega
      · rw [if_neg hlt]
        by_cases heq : n = k
        · rw [if_pos heq]
          subst heq
          exact List.pairwise_cons.mpr ⟨hk, hrest⟩
        · rw [if_neg heq]
          refine List.pairwise_cons.mpr ⟨fun c hc => ?_, ih hrest⟩
          rcases mem_of_insertNumbered hc with rfl | hc
          · omega
          · exact hk c hc

theorem Ascending.foldl (h : Ascending l) (env : Environment) :
    Ascending (env.foldl noteVariable l) := by
  induction env generalizing l with
  | nil => exact h
  | cons b rest ih =>
      refine ih ?_
      unfold noteVariable
      cases numbered? b with
      | none => exact h
      | some c => exact h.insertNumbered c.1 c.2

/-- **The order of the values.**  They stand in the order of their numbers, each number once. -/
theorem numberedValues_ascending (env : Environment) : Ascending (numberedValues env) := by
  rw [numberedValues_eq_foldl]
  exact Ascending.foldl List.Pairwise.nil env

/-- When no number occurs twice, no value is lost. -/
theorem foldl_noteVariable_perm
    (h : (l.map Prod.fst ++ (env.filterMap numbered?).map Prod.fst).Nodup) :
    (env.foldl noteVariable l).Perm (l ++ env.filterMap numbered?) := by
  induction env generalizing l with
  | nil => simp
  | cons b rest ih =>
      simp only [List.foldl_cons, noteVariable]
      cases hb : numbered? b with
      | none =>
          rw [List.filterMap_cons_none hb] at h ⊢
          exact ih h
      | some c =>
          obtain ⟨n, value⟩ := c
          rw [List.filterMap_cons_some hb] at h ⊢
          have hnew : n ∉ l.map Prod.fst := by
            intro hin
            exact (List.nodup_append.mp h).2.2 n hin n (by simp) rfl
          have hinserted : (insertNumbered n value l).Perm ((n, value) :: l) :=
            insertNumbered_perm hnew
          have hmoved :
              (l.map Prod.fst ++ ((n, value) :: rest.filterMap numbered?).map Prod.fst).Perm
                ((insertNumbered n value l).map Prod.fst ++
                  (rest.filterMap numbered?).map Prod.fst) := by
            refine List.perm_middle.trans ?_
            exact ((hinserted.map Prod.fst).symm.append_right _)
          refine (ih (hmoved.nodup_iff.mp h)).trans ?_
          exact (hinserted.append_right _).trans List.perm_middle.symm

/-- **The values do not depend on the order of the environment.**  When the numbered variables of an
environment are some values, in whatever order, and no number occurs twice, they are read as these
values. -/
theorem numberedValues_eq (hascending : Ascending values)
    (hperm : (env.filterMap numbered?).Perm values) : numberedValues env = values := by
  have hdistinct : ((env.filterMap numbered?).map Prod.fst).Nodup := by
    rw [(hperm.map Prod.fst).nodup_iff]
    exact List.pairwise_map.mpr (hascending.imp fun hlt => Nat.ne_of_lt hlt)
  have hread : (numberedValues env).Perm values := by
    rw [numberedValues_eq_foldl]
    exact (foldl_noteVariable_perm (l := []) hdistinct).trans hperm
  refine List.Perm.eq_of_pairwise ?_ (numberedValues_ascending env) hascending hread
  intro a b _ _ hab hba
  exact absurd hab (Nat.lt_asymm hba)

/-! ## Gaps -/

/-- The search finds a number that is missing, while all before it are there. -/
theorem missingFrom?_spec {numbers : List Nat} {fuel k missing : Nat}
    (h : missingFrom? numbers fuel k = some missing) :
    k ≤ missing ∧ missing ∉ numbers ∧ ∀ j, k ≤ j → j < missing → j ∈ numbers := by
  induction fuel generalizing k with
  | zero => cases h
  | succ fuel ih =>
      unfold missingFrom? at h
      by_cases hk : k ∈ numbers
      · rw [if_pos (List.contains_iff_mem.mpr hk)] at h
        obtain ⟨hle, hmissing, hall⟩ := ih h
        refine ⟨by omega, hmissing, fun j hj hlt => ?_⟩
        rcases Nat.eq_or_lt_of_le hj with heq | hbeyond
        · exact heq ▸ hk
        · exact hall j hbeyond hlt
      · rw [if_neg (by simpa using hk)] at h
        have heq : k = missing := Option.some.inj h
        rw [← heq]
        exact ⟨Nat.le_refl k, hk, fun j hj hlt => absurd hj (Nat.not_le_of_lt hlt)⟩

/-- There is no gap when all numbers from one on are there. -/
theorem firstMissing?_eq_none {numbers : List Nat} {last : Nat}
    (h : ∀ k, 1 ≤ k → k ≤ last → k ∈ numbers) : firstMissing? numbers last = none := by
  unfold firstMissing?
  cases hsearch : missingFrom? numbers (numbers.length + 1) 1 with
  | none => rfl
  | some missing =>
      obtain ⟨hpos, hmissing, -⟩ := missingFrom?_spec hsearch
      have hbeyond : ¬missing ≤ last := fun hle => hmissing (h missing hpos hle)
      simp only [if_neg hbeyond]

end InferenceRouting.Credential
