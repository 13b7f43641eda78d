import InferenceRouting.Proofs.Credential.Numbered
import Mathlib.Data.List.Basic

/-!
# One list, two sources

The same secrets and models can be given as entries of the configuration or as numbered variables
(`variablesFrom`).  Both ways give slots for the same entries, with the same models, in the same
order: blank secrets are dropped, blank models are absent (`loadSlots_sources`).

They differ in one point.  The numbered secrets are trimmed, as the models are in both ways, while a
secret of the configuration keeps the white space around it.  The two ways therefore give the same
secrets exactly when no usable secret has white space around it.
-/

namespace InferenceRouting.Credential

variable {n : Nat} {e : Entry} {entries : List Entry} {env : Environment}

/-- The variables that give the entries of a list, of which the first is entry `n`. -/
def variablesFrom : Nat → List Entry → Environment
  | _, [] => []
  | n, e :: rest =>
    (secretName n, e.key.text) ::
      ((e.model.map fun m => (modelName n, m)).toList ++ variablesFrom (n + 1) rest)

/-- The numbers of entries and their secrets, the first of them entry `n`. -/
def secretsFrom (n : Nat) (entries : List Entry) : List (Nat × String) :=
  (entries.zipIdx n).map fun (e, i) => (i, e.key.text)

/-- A slot as it would be read from a numbered variable. -/
def Slot.asNumbered (s : Slot) : Slot :=
  { s with secret := ⟨Blank.trim s.secret.text⟩, source := .numbered }

/-! ## The variables of a list -/

/-- A variable of the list is that of a secret or of a model, and none comes before the first. -/
theorem name_of_mem_variablesFrom {b : String × String} (h : b ∈ variablesFrom n entries) :
    ∃ k, n ≤ k ∧ (b.1 = secretName k ∨ b.1 = modelName k) := by
  induction entries generalizing n with
  | nil => cases h
  | cons e rest ih =>
      rcases List.mem_cons.mp h with rfl | h
      · exact ⟨n, Nat.le_refl n, .inl rfl⟩
      · rcases List.mem_append.mp h with hmodel | hrest
        · obtain ⟨m, -, rfl⟩ := Option.map_eq_some_iff.mp (Option.mem_toList.mp hmodel)
          exact ⟨n, Nat.le_refl n, .inr rfl⟩
        · obtain ⟨k, hk, hname⟩ := ih hrest
          exact ⟨k, Nat.le_of_succ_le hk, hname⟩

theorem secretName_notMem_later {k : Nat} (h : k < n) :
    secretName k ∉ (variablesFrom n entries).map Prod.fst := by
  intro hin
  obtain ⟨b, hb, hname⟩ := List.mem_map.mp hin
  obtain ⟨j, hj, hsecret | hmodel⟩ := name_of_mem_variablesFrom hb
  · have := secretName_injective (hname.symm.trans hsecret)
    omega
  · exact secretName_ne_modelName k j (hname.symm.trans hmodel)

theorem modelName_notMem_later {k : Nat} (h : k < n) :
    modelName k ∉ (variablesFrom n entries).map Prod.fst := by
  intro hin
  obtain ⟨b, hb, hname⟩ := List.mem_map.mp hin
  obtain ⟨j, hj, hsecret | hmodel⟩ := name_of_mem_variablesFrom hb
  · exact secretName_ne_modelName j k (hsecret.symm.trans hname)
  · have := modelName_injective (hname.symm.trans hmodel)
    omega

/-- No variable is given twice. -/
theorem nodup_variablesFrom (n : Nat) (entries : List Entry) :
    ((variablesFrom n entries).map Prod.fst).Nodup := by
  induction entries generalizing n with
  | nil => exact List.nodup_nil
  | cons e rest ih =>
      have hsecret : secretName n ∉ (variablesFrom (n + 1) rest).map Prod.fst :=
        secretName_notMem_later (Nat.lt_succ_self n)
      have hmodel : modelName n ∉ (variablesFrom (n + 1) rest).map Prod.fst :=
        modelName_notMem_later (Nat.lt_succ_self n)
      have hne := secretName_ne_modelName n n
      unfold variablesFrom
      cases e.model with
      | none => exact List.nodup_cons.mpr ⟨hsecret, ih (n + 1)⟩
      | some m =>
          refine List.nodup_cons.mpr ⟨?_, List.nodup_cons.mpr ⟨hmodel, ih (n + 1)⟩⟩
          intro hin
          rcases List.mem_cons.mp hin with heq | hin
          · exact hne heq
          · exact hsecret hin

/-- The model of an entry is looked up under its name. -/
theorem lookup_modelName {i : Nat} (h : entries[i]? = some e) :
    (variablesFrom n entries).lookup (modelName (n + i)) = e.model := by
  induction entries generalizing n i with
  | nil => cases h
  | cons first rest ih =>
      have hskip : (modelName (n + i) == secretName n) = false :=
        beq_false_of_ne (secretName_ne_modelName n (n + i)).symm
      unfold variablesFrom
      rw [List.lookup_cons, hskip]
      dsimp only
      rw [List.lookup_append]
      cases i with
      | zero =>
          obtain rfl : first = e := Option.some.inj h
          have hlater : (variablesFrom (n + 1) rest).lookup (modelName n) = none := by
            refine List.lookup_eq_none_iff.mpr fun b hb => ?_
            have hin : b.1 ∈ (variablesFrom (n + 1) rest).map Prod.fst := List.mem_map_of_mem hb
            rw [bne_iff_ne]
            intro heq
            rw [← heq] at hin
            exact modelName_notMem_later (Nat.lt_succ_self n) hin
          cases hmodel : first.model with
          | none => simp [hlater]
          | some m => simp
      | succ i =>
          have hne : modelName (n + (i + 1)) ≠ modelName n := by
            intro heq
            have := modelName_injective heq
            omega
          have hfirst : (first.model.map fun m => (modelName n, m)).toList.lookup
              (modelName (n + (i + 1))) = none := by
            cases first.model with
            | none => rfl
            | some m => simp [List.lookup_cons, beq_false_of_ne hne]
          rw [hfirst, Option.none_or, ← Nat.succ_add_eq_add_succ]
          exact ih h

/-- The numbered variables among those of a list are the secrets. -/
theorem filterMap_numbered?_variablesFrom (hpos : 1 ≤ n)
    (hle : n + entries.length ≤ Json.maxNat64 + 1) :
    (variablesFrom n entries).filterMap numbered? = secretsFrom n entries := by
  induction entries generalizing n with
  | nil => rfl
  | cons e rest ih =>
      rw [List.length_cons] at hle
      have hsecret : numbered? (secretName n, e.key.text) = some (n, e.key.text) := by
        rw [numbered?, entryNumber?_secretName hpos (by omega)]
        rfl
      have hmodel : ((e.model.map fun m => (modelName n, m)).toList).filterMap numbered? = [] := by
        cases e.model with
        | none => rfl
        | some m => simp [numbered?, entryNumber?_modelName]
      unfold variablesFrom
      rw [List.filterMap_cons_some hsecret, List.filterMap_append, hmodel, List.nil_append,
        ih (by omega) (by omega)]
      rfl

/-- The secrets are numbered one after the other. -/
theorem map_fst_secretsFrom (n : Nat) (entries : List Entry) :
    (secretsFrom n entries).map Prod.fst = List.range' n entries.length := by
  rw [secretsFrom, List.map_map, ← List.zipIdx_map_snd n entries]
  rfl

theorem ascending_secretsFrom (n : Nat) (entries : List Entry) :
    Ascending (secretsFrom n entries) := by
  refine List.pairwise_map.mp ?_
  rw [map_fst_secretsFrom]
  exact List.pairwise_lt_range'

/-! ## The two loaders -/

/-- The slots of the configuration are those of the usable entries. -/
theorem mem_configuredSlots {s : Slot} :
    s ∈ configuredSlots entries ↔
      ∃ e i, entries[i]? = some e ∧ Blank.isBlankText e.key.text = false ∧
        s = ⟨e.key, Blank.nonBlank? e.model, .config, i + 1⟩ := by
  constructor
  · intro h
    obtain ⟨⟨e, i⟩, hmem, hslot⟩ := List.mem_filterMap.mp h
    have hget : entries[i]? = some e := List.mk_mem_zipIdx_iff_getElem?.mp hmem
    by_cases hblank : Blank.isBlankText e.key.text = true
    · simp [hblank] at hslot
    · simp only [if_neg hblank, Option.some.injEq] at hslot
      exact ⟨e, i, hget, Bool.eq_false_iff.mpr hblank, hslot.symm⟩
  · rintro ⟨e, i, hget, hblank, rfl⟩
    refine List.mem_filterMap.mpr ⟨(e, i), List.mk_mem_zipIdx_iff_getElem?.mpr hget, ?_⟩
    simp [hblank]

/-- They stand in the order of the entries. -/
theorem configuredSlots_ascending (entries : List Entry) :
    (configuredSlots entries).Pairwise fun s t => s.entry < t.entry := by
  have horder : entries.zipIdx.Pairwise fun a b => a.2 < b.2 := by
    refine List.pairwise_map.mp ?_
    rw [List.zipIdx_map_snd]
    exact List.pairwise_lt_range'
  refine List.pairwise_filterMap.mpr (horder.imp fun {a b} hab s hs t ht => ?_)
  have hentry {c : Entry × Nat} {u : Slot}
      (h : (if Blank.isBlankText c.1.key.text then none
        else some ⟨c.1.key, Blank.nonBlank? c.1.model, .config, c.2 + 1⟩) = some u) :
      u.entry = c.2 + 1 := by
    by_cases hblank : Blank.isBlankText c.1.key.text = true
    · rw [if_pos hblank] at h
      cases h
    · rw [if_neg hblank] at h
      cases h
      rfl
  rw [hentry hs, hentry ht]
  omega

/-- What is read under a numbered name is what the configuration gives, with the secret trimmed. -/
theorem trimmedSlot?_eq (e : Entry) (i : Nat) :
    trimmedSlot? .numbered i e.key.text e.model =
      (if Blank.isBlankText e.key.text then none
        else some (⟨e.key, Blank.nonBlank? e.model, .config, i⟩ : Slot)).map Slot.asNumbered := by
  unfold trimmedSlot?
  split
  · rfl
  · rfl

/-- An environment that gives a list has its slots, as numbered ones. -/
theorem numberedSlots_variablesFrom (hne : entries ≠ [])
    (hle : entries.length ≤ Json.maxNat64) (henv : env.Perm (variablesFrom 1 entries)) :
    numberedSlots env = .ok ((configuredSlots entries).map Slot.asNumbered) := by
  have hvalues : numberedValues env = secretsFrom 1 entries := by
    refine numberedValues_eq (ascending_secretsFrom 1 entries) ?_
    rw [← filterMap_numbered?_variablesFrom (Nat.le_refl 1) (by omega)]
    exact henv.filterMap numbered?
  have hlast : ((secretsFrom 1 entries).map Prod.fst).getLast? = some entries.length := by
    have hpos : entries.length ≠ 0 := fun h => hne (List.length_eq_zero_iff.mp h)
    rw [map_fst_secretsFrom, List.getLast?_range', if_neg hpos, Nat.add_sub_cancel_left]
  have hall : firstMissing? ((secretsFrom 1 entries).map Prod.fst) entries.length = none := by
    refine firstMissing?_eq_none fun k hpos hk => ?_
    rw [map_fst_secretsFrom]
    exact List.mem_range'_1.mpr ⟨hpos, by omega⟩
  have hslots : (secretsFrom 1 entries).filterMap (fun b =>
      trimmedSlot? .numbered b.1 b.2 (env.value? (modelName b.1))) =
      (configuredSlots entries).map Slot.asNumbered := by
    rw [secretsFrom, configuredSlots, List.zipIdx_succ, List.map_map, List.filterMap_map,
      List.map_filterMap]
    refine List.filterMap_congr fun b hb => ?_
    obtain ⟨e, i⟩ := b
    have hmodel : env.value? (modelName (i + 1)) = e.model := by
      rw [Environment.value?, Keyed.lookup_perm (nodup_variablesFrom 1 entries) henv,
        Nat.add_comm i 1]
      exact lookup_modelName (List.mk_mem_zipIdx_iff_getElem?.mp hb)
    simp only [Function.comp, hmodel, trimmedSlot?_eq]
  unfold numberedSlots
  rw [hvalues]
  dsimp only
  rw [hlast]
  dsimp only
  rw [hall]
  exact congrArg Except.ok hslots

/-- An environment that gives a list has no legacy variables. -/
theorem legacySlots_variablesFrom (henv : env.Perm (variablesFrom n entries)) :
    legacySlots env = [] := by
  have habsent {name : String} (h : ¬numberedName.toList <+: name.toList) :
      env.value? name = none := by
    refine List.lookup_eq_none_iff.mpr fun b hb => ?_
    rw [bne_iff_ne]
    intro heq
    apply h
    obtain ⟨k, -, hsecret | hmodel⟩ := name_of_mem_variablesFrom (henv.mem_iff.mp hb)
    · rw [heq, hsecret, secretName, String.toList_ofList]
      exact List.prefix_append _ _
    · rw [heq, hmodel, modelName, String.toList_ofList, List.append_assoc]
      exact List.prefix_append _ _
  have hfirst : env.value? "FLEET_API_KEY" = none := habsent (by decide)
  have hsecond : env.value? "FLEET_API_KEY_2" = none := habsent (by decide)
  simp [legacySlots, legacyNames, hfirst, hsecond]

theorem loadSlots_of_entries (hne : entries ≠ []) (env : Environment) :
    loadSlots entries env = .ok (configuredSlots entries) := by
  unfold loadSlots
  rw [if_neg]
  rw [List.isEmpty_iff]
  exact hne

theorem loadSlots_variablesFrom (hne : entries ≠ [])
    (hle : entries.length ≤ Json.maxNat64) (henv : env.Perm (variablesFrom 1 entries)) :
    loadSlots [] env = .ok ((configuredSlots entries).map Slot.asNumbered) := by
  unfold loadSlots
  rw [numberedSlots_variablesFrom hne hle henv, legacySlots_variablesFrom henv]
  cases (configuredSlots entries).map Slot.asNumbered with
  | nil => rfl
  | cons s rest => rfl

/-- **The same list from two sources.**  A list of secrets and models, given as the entries of the
configuration or as an environment that holds exactly their numbered variables in any order, has
slots for the same entries with the same models in the same order.  They are those of the entries
whose secrets are not blank, and a blank model is absent.

White space around a secret is where the two differ: it is part of the secret of a configuration's
entry and no part of that of a numbered variable.  The two lists of secrets are the same exactly
when no usable secret has white space around it. -/
theorem loadSlots_sources (hne : entries ≠ []) (hle : entries.length ≤ Json.maxNat64)
    (henv : env.Perm (variablesFrom 1 entries)) (other : Environment) :
    ∃ configured numbered,
      loadSlots entries other = .ok configured ∧ loadSlots [] env = .ok numbered ∧
      numbered.map (fun s => (s.entry, s.model)) =
        configured.map (fun s => (s.entry, s.model)) ∧
      numbered.map (fun s => s.secret.text) =
        configured.map (fun s => Blank.trim s.secret.text) ∧
      (∀ s, s ∈ configured ↔ ∃ e i, entries[i]? = some e ∧
        Blank.isBlankText e.key.text = false ∧
        s = ⟨e.key, Blank.nonBlank? e.model, .config, i + 1⟩) ∧
      (configured.Pairwise fun s t => s.entry < t.entry) ∧
      (numbered.map Slot.secret = configured.map Slot.secret ↔
        ∀ e ∈ entries, Blank.isBlankText e.key.text = false →
          Blank.trim e.key.text = e.key.text) := by
  refine ⟨configuredSlots entries, (configuredSlots entries).map Slot.asNumbered,
    loadSlots_of_entries hne other, loadSlots_variablesFrom hne hle henv, ?_, ?_,
    fun s => mem_configuredSlots, configuredSlots_ascending entries, ?_⟩
  · rw [List.map_map]
    rfl
  · rw [List.map_map]
    rfl
  · rw [List.map_map, List.map_inj_left]
    constructor
    · intro hsame e he hblank
      obtain ⟨i, hi⟩ := List.mem_iff_getElem?.mp he
      have hslot := hsame _ (mem_configuredSlots.mpr ⟨e, i, hi, hblank, rfl⟩)
      exact congrArg Secret.text hslot
    · intro htrimmed s hs
      obtain ⟨e, i, hi, hblank, rfl⟩ := mem_configuredSlots.mp hs
      have := htrimmed e (List.mem_of_getElem? hi) hblank
      simp [Slot.asNumbered, this]

/-- A padded secret with a blank model, and a blank secret. -/
def paddedEntries : List Entry :=
  [⟨⟨" sk-one "⟩, some " "⟩, ⟨⟨" "⟩, some "m"⟩]

/-- The same as variables, the models first. -/
def paddedVariables : Environment :=
  [("FLEET_CREDENTIAL_1_MODEL", " "), ("FLEET_CREDENTIAL_2_MODEL", "m"),
    ("FLEET_CREDENTIAL_1", " sk-one "), ("FLEET_CREDENTIAL_2", " ")]

/-- Both sources give one slot, for the first entry and without a model, but not the same secret. -/
theorem loadSlots_sources_padded :
    paddedEntries ≠ [] ∧ paddedEntries.length ≤ Json.maxNat64 ∧
      paddedVariables.Perm (variablesFrom 1 paddedEntries) ∧
      ∃ configured numbered,
        loadSlots paddedEntries [] = .ok configured ∧
        loadSlots [] paddedVariables = .ok numbered ∧
        numbered.map (fun s => (s.entry, s.model)) = configured.map (fun s => (s.entry, s.model)) ∧
        numbered.map Slot.secret ≠ configured.map Slot.secret := by
  have hne : paddedEntries ≠ [] := by decide
  have hle : paddedEntries.length ≤ Json.maxNat64 := by decide
  have henv : paddedVariables.Perm (variablesFrom 1 paddedEntries) := by decide +kernel
  refine ⟨hne, hle, henv, ?_⟩
  obtain ⟨configured, numbered, hconfigured, hnumbered, hsame, -, -, -, hsecrets⟩ :=
    loadSlots_sources hne hle henv []
  refine ⟨configured, numbered, hconfigured, hnumbered, hsame, fun heq => ?_⟩
  have htrimmed := hsecrets.mp heq ⟨⟨" sk-one "⟩, some " "⟩ (by decide) (by decide)
  exact absurd htrimmed (by decide)

/-- A secret with a blank on either side is kept as it is when the configuration gives it, and
trimmed when a numbered variable does. -/
theorem padded_secret_differs :
    loadSlots [⟨⟨" sk-one "⟩, none⟩] [] = .ok [⟨⟨" sk-one "⟩, none, .config, 1⟩] ∧
      loadSlots [] [("FLEET_CREDENTIAL_1", " sk-one ")] =
        .ok [⟨⟨"sk-one"⟩, none, .numbered, 1⟩] := by
  decide +kernel

end InferenceRouting.Credential
