import InferenceRouting.Proofs.Credential.Numbered
import Mathlib.Data.List.Basic
import Mathlib.Data.Set.Card

/-!
# What the numbered variables give

Of several variables with one number the last one stays (`lastValue?`), so what is read is a list in
the order of the numbers with these values (`lookup_numberedValues`).  A number that is missing below
the greatest one in use refuses it all, and the message names the least such number and the greatest
one in use (`numberedSlots_of_gap`).  Without a gap there is one slot for each number whose value is
not blank (`mem_usableSlots`), and when there is none the legacy variables are read.

`loadSlots_numbered` says this of the variables themselves, for environments that spell every number
in the usual way.  It also counts the looks of the search for a gap (`searchFrom`): it never takes
more than one look for each number in use and one for the number that is missing.
-/

namespace InferenceRouting.Credential

variable {n k last missing fuel left : Nat} {name value : String} {l : List (Nat × String)}
  {numbers : List Nat} {env : Environment}

/-! ## The value of a number -/

/-- The value that stays for a number: that of the last variable with it. -/
def lastValue? (env : Environment) (n : Nat) : Option String :=
  (env.filterMap numbered?).reverse.lookup n

/-- A variable of the environment has the number. -/
def InUse (env : Environment) (n : Nat) : Prop :=
  ∃ b ∈ env, entryNumber? b.1 = some n

theorem lookup_insertNumbered (n : Nat) (value : String) (l : List (Nat × String)) (k : Nat) :
    (insertNumbered n value l).lookup k = if k = n then some value else l.lookup k := by
  induction l with
  | nil =>
      by_cases hk : k = n
      · simp [insertNumbered, hk]
      · simp [insertNumbered, hk, List.lookup_cons, beq_false_of_ne hk]
  | cons b rest ih =>
      obtain ⟨j, v⟩ := b
      unfold insertNumbered
      by_cases hlt : n < j
      · rw [if_pos hlt]
        by_cases hk : k = n
        · simp [hk]
        · simp [hk, List.lookup_cons, beq_false_of_ne hk]
      · rw [if_neg hlt]
        by_cases heq : n = j
        · subst heq
          rw [if_pos rfl]
          by_cases hk : k = n
          · simp [hk]
          · simp [hk, List.lookup_cons, beq_false_of_ne hk]
        · rw [if_neg heq, List.lookup_cons, List.lookup_cons, ih]
          by_cases hk : k = j
          · have hne : k ≠ n := fun h => heq (h.symm.trans hk)
            simp [hk, Ne.symm heq]
          · simp [beq_false_of_ne hk]

/-- Reading the variables one after the other leaves for each number the value of the last one. -/
theorem lookup_foldl_noteVariable (env : Environment) (l : List (Nat × String)) (k : Nat) :
    (env.foldl noteVariable l).lookup k = (lastValue? env k).or (l.lookup k) := by
  induction env generalizing l with
  | nil => rfl
  | cons b rest ih =>
      rw [List.foldl_cons, ih]
      unfold lastValue? noteVariable
      cases hb : numbered? b with
      | none => rw [List.filterMap_cons_none hb]
      | some c =>
          obtain ⟨n, value⟩ := c
          rw [List.filterMap_cons_some hb, List.reverse_cons, List.lookup_append, Option.or_assoc]
          congr 1
          dsimp only
          rw [lookup_insertNumbered]
          by_cases hk : k = n
          · simp [hk]
          · simp [hk, List.lookup_cons, beq_false_of_ne hk]

theorem lookup_numberedValues (env : Environment) (n : Nat) :
    (numberedValues env).lookup n = lastValue? env n := by
  rw [numberedValues_eq_foldl, lookup_foldl_noteVariable]
  exact Option.or_none

theorem Ascending.nodup (h : Ascending l) : (l.map Prod.fst).Nodup :=
  List.pairwise_map.mpr (h.imp fun hlt => Nat.ne_of_lt hlt)

theorem mem_numberedValues :
    (n, value) ∈ numberedValues env ↔ lastValue? env n = some value := by
  rw [← lookup_numberedValues]
  exact ⟨Keyed.lookup_eq_some (numberedValues_ascending env).nodup, Keyed.mem_of_lookup⟩

theorem lastValue?_isSome : (lastValue? env n).isSome ↔ InUse env n := by
  unfold lastValue? InUse
  rw [Keyed.lookup_isSome]
  simp only [List.map_reverse, List.mem_reverse, List.mem_map, List.mem_filterMap, numbered?,
    Option.map_eq_some_iff]
  constructor
  · rintro ⟨c, ⟨b, hb, m, hm, rfl⟩, rfl⟩
    exact ⟨b, hb, hm⟩
  · rintro ⟨b, hb, hn⟩
    exact ⟨(n, b.2), ⟨b, hb, n, hn, rfl⟩, rfl⟩

/-- The numbers that are read are those in use. -/
theorem mem_numbers : n ∈ (numberedValues env).map Prod.fst ↔ InUse env n := by
  rw [← Keyed.lookup_isSome, lookup_numberedValues, lastValue?_isSome]

theorem le_of_parse? {bound : Nat} {cs : List Char} (h : Decimal.parse? bound cs = some n) :
    n ≤ bound := by
  unfold Decimal.parse? at h
  grind

/-- A name with a number is the common beginning and a numeral of at least one. -/
theorem exists_of_entryNumber? (h : entryNumber? name = some n) :
    ∃ rest, name = String.ofList (numberedName.toList ++ rest) ∧
      Decimal.parse? Json.maxNat64 rest = some n ∧ 1 ≤ n := by
  have hprefix : numberedName.toList <+: name.toList := by
    cases hstarts : numberedName.toList.isPrefixOf name.toList with
    | true => exact List.isPrefixOf_iff_prefix.mp hstarts
    | false => simp [entryNumber?, hstarts] at h
  obtain ⟨rest, hrest⟩ := hprefix
  have hname : name = String.ofList (numberedName.toList ++ rest) := by
    rw [hrest, String.ofList_toList]
  rw [hname, entryNumber?_append] at h
  split at h
  · cases h
  · obtain ⟨hparse, hpos⟩ := Option.filter_eq_some_iff.mp h
    exact ⟨rest, hname, hparse, of_decide_eq_true hpos⟩

/-- Entry numbers start at one and have 64 bits. -/
theorem InUse.bounds (h : InUse env n) : 1 ≤ n ∧ n ≤ Json.maxNat64 := by
  obtain ⟨b, -, hb⟩ := h
  obtain ⟨rest, -, hparse, hpos⟩ := exists_of_entryNumber? hb
  exact ⟨hpos, le_of_parse? hparse⟩

/-! ## The search for a gap -/

/-- The search among `left` numbers, the first of them `k`, for one that is not in the list, with the
number of looks it takes. -/
def searchFrom (numbers : List Nat) : Nat → Nat → Option Nat × Nat
  | 0, _ => (none, 0)
  | left + 1, k =>
    if numbers.contains k then
      let (missing, looks) := searchFrom numbers left (k + 1)
      (missing, looks + 1)
    else (some k, 1)

/-- A run of numbers that are all in the list is no longer than the list. -/
theorem run_le_length {count : Nat} (h : ∀ j, k ≤ j → j < k + count → j ∈ numbers) :
    count ≤ numbers.length := by
  have hsubset : List.range' k count ⊆ numbers := fun j hj =>
    have hrange := List.mem_range'_1.mp hj
    h j hrange.1 hrange.2
  have hlength := ((List.nodup_range' 1).subperm hsubset).length_le
  rwa [List.length_range'] at hlength

/-- A search passes numbers that are in the list, and ends after all of them or at one that is
not. -/
theorem searchFrom_spec (numbers : List Nat) (left k : Nat) :
    ∃ seen, (∀ j, k ≤ j → j < k + seen → j ∈ numbers) ∧
      (searchFrom numbers left k = (none, seen) ∧ seen = left ∨
        searchFrom numbers left k = (some (k + seen), seen + 1) ∧ seen < left ∧
          k + seen ∉ numbers) := by
  induction left generalizing k with
  | zero => exact ⟨0, fun j hj hlt => absurd hj (Nat.not_le_of_lt hlt), .inl ⟨rfl, rfl⟩⟩
  | succ left ih =>
      by_cases hk : k ∈ numbers
      · obtain ⟨seen, hseen, hcases⟩ := ih (k + 1)
        refine ⟨seen + 1, fun j hj hlt => ?_, ?_⟩
        · rcases Nat.eq_or_lt_of_le hj with rfl | hbeyond
          · exact hk
          · exact hseen j hbeyond (by omega)
        · have hnext : k + (seen + 1) = k + 1 + seen := by omega
          unfold searchFrom
          rw [if_pos (List.contains_iff_mem.mpr hk), hnext]
          rcases hcases with ⟨hsearch, rfl⟩ | ⟨hsearch, hlt, hmissing⟩
          · exact .inl ⟨by rw [hsearch], rfl⟩
          · exact .inr ⟨by rw [hsearch], by omega, hmissing⟩
      · refine ⟨0, fun j hj hlt => absurd hj (Nat.not_le_of_lt hlt), .inr ⟨?_, by omega, hk⟩⟩
        unfold searchFrom
        rw [if_neg (by simpa using hk)]
        rfl

/-- However many numbers there are to search, it never takes more than one look for each number in
the list and one for the number that is missing. -/
theorem searchFrom_looks_le (numbers : List Nat) (left k : Nat) :
    (searchFrom numbers left k).2 ≤ numbers.length + 1 := by
  obtain ⟨seen, hseen, ⟨hsearch, -⟩ | ⟨hsearch, -⟩⟩ := searchFrom_spec numbers left k
  · rw [hsearch]
    exact Nat.le_succ_of_le (run_le_length hseen)
  · rw [hsearch]
    exact Nat.succ_le_succ (run_le_length hseen)

theorem searchFrom_fst (numbers : List Nat) (left k : Nat) :
    (searchFrom numbers left k).1 = missingFrom? numbers left k := by
  induction left generalizing k with
  | zero => rfl
  | succ left ih =>
      unfold searchFrom missingFrom?
      split
      · exact ih (k + 1)
      · rfl

/-- Among more numbers than there are in the list one is missing. -/
theorem exists_missingFrom? (numbers : List Nat) (k : Nat) :
    ∃ missing, missingFrom? numbers (numbers.length + 1) k = some missing := by
  obtain ⟨seen, hseen, ⟨-, rfl⟩ | ⟨hsearch, -⟩⟩ := searchFrom_spec numbers (numbers.length + 1) k
  · exact absurd (run_le_length hseen) (Nat.not_succ_le_self _)
  · exact ⟨k + seen, by rw [← searchFrom_fst, hsearch]⟩

/-- **Gaps.**  The number found is the least one that is missing up to the last. -/
theorem firstMissing?_eq_some_iff :
    firstMissing? numbers last = some missing ↔
      IsLeast {k | 1 ≤ k ∧ k ≤ last ∧ k ∉ numbers} missing := by
  obtain ⟨found, hfound⟩ := exists_missingFrom? numbers 1
  obtain ⟨hpos, hmissing, hall⟩ := missingFrom?_spec hfound
  unfold firstMissing?
  rw [hfound]
  dsimp only
  constructor
  · intro h
    split at h
    · rename_i hle
      cases h
      refine ⟨⟨hpos, hle, hmissing⟩, fun j hj => Nat.le_of_not_lt fun hlt => ?_⟩
      exact hj.2.2 (hall j hj.1 hlt)
    · cases h
  · rintro ⟨⟨hone, hle, hnew⟩, hleast⟩
    have hfirst : found ≤ missing := Nat.le_of_not_lt fun hlt => hnew (hall missing hone hlt)
    have hsame : missing ≤ found := hleast ⟨hpos, Nat.le_trans hfirst hle, hmissing⟩
    rw [if_pos (Nat.le_trans hfirst hle), Nat.le_antisymm hfirst hsame]

/-- The search of all numbers up to the last finds what the bounded one finds. -/
theorem searchFrom_eq_firstMissing? (numbers : List Nat) (last : Nat) :
    (searchFrom numbers last 1).1 = firstMissing? numbers last := by
  obtain ⟨seen, hseen, ⟨hsearch, rfl⟩ | ⟨hsearch, hlt, hmissing⟩⟩ :=
    searchFrom_spec numbers last 1
  · rw [hsearch]
    exact (firstMissing?_eq_none fun k hpos hk => hseen k hpos (by omega)).symm
  · rw [hsearch]
    refine (firstMissing?_eq_some_iff.mpr ⟨⟨by omega, by omega, hmissing⟩, fun k hk => ?_⟩).symm
    exact Nat.le_of_not_lt fun hbelow => hk.2.2 (hseen k hk.1 hbelow)

/-! ## The slots -/

/-- Below some number that counts there is one that does not. -/
def HasGap (counts : Nat → Prop) : Prop :=
  ∃ k n, 1 ≤ k ∧ k < n ∧ counts n ∧ ¬counts k

/-- The slots of the numbers whose values are not blank. -/
def usableSlots (env : Environment) : List Slot :=
  (numberedValues env).filterMap fun b =>
    trimmedSlot? .numbered b.1 b.2 (env.value? (modelName b.1))

/-- The last number in an ascending list is the greatest. -/
theorem Ascending.isGreatest (h : Ascending l) (hlast : (l.map Prod.fst).getLast? = some last) :
    IsGreatest {n | n ∈ l.map Prod.fst} last := by
  obtain ⟨before, hbefore⟩ := List.getLast?_eq_some_iff.mp hlast
  have horder : (before ++ [last]).Pairwise (· < ·) := hbefore ▸ List.pairwise_map.mpr h
  rw [hbefore]
  refine ⟨by simp, fun n hn => ?_⟩
  rcases List.mem_append.mp hn with hn | hn
  · exact Nat.le_of_lt ((List.pairwise_append.mp horder).2.2 n hn last (by simp))
  · exact Nat.le_of_eq (List.mem_singleton.mp hn)

theorem isGreatest_inUse (hlast : ((numberedValues env).map Prod.fst).getLast? = some last) :
    IsGreatest {n | InUse env n} last := by
  have hgreatest := (numberedValues_ascending env).isGreatest hlast
  simpa only [mem_numbers] using hgreatest

/-- What is missing up to the greatest number in use is missing below it. -/
theorem firstMissing?_inUse (hlast : IsGreatest {n | InUse env n} last) :
    firstMissing? ((numberedValues env).map Prod.fst) last = some missing ↔
      IsLeast {k | 1 ≤ k ∧ k < last ∧ ¬InUse env k} missing := by
  have hset : {k | 1 ≤ k ∧ k ≤ last ∧ k ∉ (numberedValues env).map Prod.fst} =
      {k | 1 ≤ k ∧ k < last ∧ ¬InUse env k} := by
    ext k
    simp only [Set.mem_ofPred_eq, mem_numbers]
    refine and_congr_right fun _ => ⟨fun ⟨hle, hk⟩ => ⟨?_, hk⟩, fun ⟨hlt, hk⟩ => ⟨hlt.le, hk⟩⟩
    exact lt_of_le_of_ne hle fun heq => hk (heq ▸ hlast.1)
  rw [firstMissing?_eq_some_iff, hset]

theorem HasGap.exists_last (h : HasGap (InUse env)) :
    ∃ last, ((numberedValues env).map Prod.fst).getLast? = some last := by
  obtain ⟨k, n, -, -, hn, -⟩ := h
  refine Option.ne_none_iff_exists'.mp fun hnone => ?_
  have hin := mem_numbers.mpr hn
  rw [List.getLast?_eq_none_iff.mp hnone] at hin
  cases hin

/-- **A gap** refuses the numbered variables.  The message names the least number that is missing and
the greatest one in use. -/
theorem numberedSlots_of_gap (h : HasGap (InUse env)) :
    ∃ missing last, IsGreatest {n | InUse env n} last ∧
      IsLeast {k | 1 ≤ k ∧ k < last ∧ ¬InUse env k} missing ∧
      numberedSlots env = .error (.configuration
        s!"{secretName missing} is missing while {secretName last} is set") := by
  obtain ⟨last, hlast⟩ := h.exists_last
  have hgreatest := isGreatest_inUse hlast
  obtain ⟨k, n, hpos, hlt, hn, hk⟩ := h
  have hgap : ∃ k, 1 ≤ k ∧ k < last ∧ ¬InUse env k :=
    ⟨k, hpos, Nat.lt_of_lt_of_le hlt (hgreatest.2 hn), hk⟩
  obtain ⟨missing, hleast⟩ : ∃ missing, IsLeast {k | 1 ≤ k ∧ k < last ∧ ¬InUse env k} missing := by
    classical
    exact ⟨Nat.find hgap, Nat.find_spec hgap, fun j hj => Nat.find_min' hgap hj⟩
  refine ⟨missing, last, hgreatest, hleast, ?_⟩
  unfold numberedSlots
  dsimp only
  rw [hlast]
  dsimp only
  rw [(firstMissing?_inUse hgreatest).mpr hleast]

/-- **Without a gap** the numbered variables give their usable slots. -/
theorem numberedSlots_of_not_gap (h : ¬HasGap (InUse env)) :
    numberedSlots env = .ok (usableSlots env) := by
  unfold numberedSlots
  dsimp only
  cases hlast : ((numberedValues env).map Prod.fst).getLast? with
  | none =>
      have hnil := List.map_eq_nil_iff.mp (List.getLast?_eq_none_iff.mp hlast)
      simp [usableSlots, hnil]
  | some last =>
      have hgreatest := isGreatest_inUse hlast
      dsimp only
      cases hmissing : firstMissing? ((numberedValues env).map Prod.fst) last with
      | none => rfl
      | some missing =>
          obtain ⟨⟨hpos, hlt, hk⟩, -⟩ := (firstMissing?_inUse hgreatest).mp hmissing
          exact absurd ⟨missing, last, hpos, hlt, hgreatest.1, hk⟩ h

theorem trimmedSlot?_eq_some {source : Source} {model : Option String} {s : Slot} :
    trimmedSlot? source n value model = some s ↔
      Blank.isBlankText value = false ∧
        s = ⟨⟨Blank.trim value⟩, Blank.nonBlank? model, source, n⟩ := by
  unfold trimmedSlot?
  split
  · rename_i hblank
    simp [hblank]
  · rename_i hblank
    simp [hblank, eq_comm]

/-- There is one usable slot for each number whose value is not blank: the secret is trimmed, and so
is the model, unless it is blank. -/
theorem mem_usableSlots {s : Slot} :
    s ∈ usableSlots env ↔ ∃ n value, lastValue? env n = some value ∧
      Blank.isBlankText value = false ∧
      s = ⟨⟨Blank.trim value⟩, Blank.nonBlank? (env.value? (modelName n)), .numbered, n⟩ := by
  unfold usableSlots
  rw [List.mem_filterMap]
  constructor
  · rintro ⟨⟨n, value⟩, hmem, hslot⟩
    exact ⟨n, value, mem_numberedValues.mp hmem, trimmedSlot?_eq_some.mp hslot⟩
  · rintro ⟨n, value, hvalue, hslot⟩
    exact ⟨(n, value), mem_numberedValues.mpr hvalue, trimmedSlot?_eq_some.mpr hslot⟩

/-- The slots stand in the order of their numbers. -/
theorem usableSlots_ascending (env : Environment) :
    (usableSlots env).Pairwise fun s t => s.entry < t.entry := by
  refine List.pairwise_filterMap.mpr ?_
  refine (numberedValues_ascending env).imp fun {a b} hab s hs t ht => ?_
  rw [(trimmedSlot?_eq_some.mp hs).2, (trimmedSlot?_eq_some.mp ht).2]
  exact hab

theorem loadSlots_of_gap (h : HasGap (InUse env)) :
    ∃ missing last, IsGreatest {n | InUse env n} last ∧
      IsLeast {k | 1 ≤ k ∧ k < last ∧ ¬InUse env k} missing ∧
      loadSlots [] env = .error (.configuration
        s!"{secretName missing} is missing while {secretName last} is set") := by
  obtain ⟨missing, last, hlast, hmissing, hslots⟩ := numberedSlots_of_gap h
  refine ⟨missing, last, hlast, hmissing, ?_⟩
  simp only [loadSlots, List.isEmpty_nil, if_true, hslots]

/-- The legacy variables are read when no numbered one is usable. -/
theorem loadSlots_of_not_gap (h : ¬HasGap (InUse env)) :
    loadSlots [] env =
      .ok (if usableSlots env = [] then legacySlots env else usableSlots env) := by
  simp only [loadSlots, List.isEmpty_nil, if_true, numberedSlots_of_not_gap h]
  cases hslots : usableSlots env with
  | nil => rfl
  | cons s rest => rfl

/-! ## Numbers in the usual spelling -/

/-- Every numeral behind the common beginning is spelled in the usual way: no plus sign and no
leading zeros. -/
def UsualNumerals (env : Environment) : Prop :=
  ∀ b ∈ env, ∀ rest n, b.1 = String.ofList (numberedName.toList ++ rest) →
    Decimal.parse? Json.maxNat64 rest = some n → rest = Decimal.digits n

/-- The environment holds this value as the secret of entry `n`.  Entry numbers start at one and
have 64 bits. -/
def Holds (env : Environment) (n : Nat) (value : String) : Prop :=
  1 ≤ n ∧ n ≤ Json.maxNat64 ∧ env.value? (secretName n) = some value

/-- The variable with the secret of entry `n` is set. -/
def IsSet (env : Environment) (n : Nat) : Prop :=
  ∃ value, Holds env n value

/-- In the usual spelling the secret of entry `n` has one variable. -/
theorem UsualNumerals.eq_secretName (h : UsualNumerals env) {b : String × String} (hb : b ∈ env)
    (hn : entryNumber? b.1 = some n) : b.1 = secretName n := by
  obtain ⟨rest, hname, hparse, -⟩ := exists_of_entryNumber? hn
  rw [hname, h b hb rest n hname hparse]
  rfl

theorem UsualNumerals.holds_of_lastValue? (h : UsualNumerals env)
    (hnames : (env.map Prod.fst).Nodup) (hlast : lastValue? env n = some value) :
    Holds env n value := by
  have hbounds := (lastValue?_isSome.mp (Option.isSome_of_eq_some hlast)).bounds
  refine ⟨hbounds.1, hbounds.2, ?_⟩
  obtain ⟨b, hb, hread⟩ : ∃ b ∈ env, numbered? b = some (n, value) := by
    simpa using Keyed.mem_of_lookup hlast
  obtain ⟨m, hm, heq⟩ := Option.map_eq_some_iff.mp hread
  cases heq
  exact Keyed.lookup_eq_some hnames (h.eq_secretName hb hm ▸ hb)

/-- In the usual spelling the value of a number is that of its variable. -/
theorem UsualNumerals.lastValue?_eq_some (h : UsualNumerals env)
    (hnames : (env.map Prod.fst).Nodup) : lastValue? env n = some value ↔ Holds env n value := by
  refine ⟨h.holds_of_lastValue? hnames, fun ⟨hpos, hle, hvalue⟩ => ?_⟩
  have hused : InUse env n :=
    ⟨_, Keyed.mem_of_lookup hvalue, entryNumber?_secretName hpos hle⟩
  obtain ⟨last, hlast⟩ := Option.isSome_iff_exists.mp (lastValue?_isSome.mpr hused)
  obtain ⟨-, -, hsame⟩ := h.holds_of_lastValue? hnames hlast
  rw [hlast, ← hsame, hvalue]

theorem UsualNumerals.inUse_eq (h : UsualNumerals env) (hnames : (env.map Prod.fst).Nodup) :
    InUse env = IsSet env := by
  funext n
  rw [← propext lastValue?_isSome, Option.isSome_iff_exists]
  exact propext (exists_congr fun value => h.lastValue?_eq_some hnames)

theorem UsualNumerals.mem_usableSlots (h : UsualNumerals env) (hnames : (env.map Prod.fst).Nodup)
    {s : Slot} :
    s ∈ usableSlots env ↔ ∃ n value, Holds env n value ∧ Blank.isBlankText value = false ∧
      s = ⟨⟨Blank.trim value⟩, Blank.nonBlank? (env.value? (modelName n)), .numbered, n⟩ := by
  simp only [Credential.mem_usableSlots, h.lastValue?_eq_some hnames]

/-- The numbers read are as many as are in use. -/
theorem length_numbers (env : Environment) :
    ((numberedValues env).map Prod.fst).length = {n | InUse env n}.ncard := by
  have hset : {n | InUse env n} = (((numberedValues env).map Prod.fst).toFinset : Set Nat) := by
    rw [List.coe_toFinset]
    exact Set.ext fun n => mem_numbers.symm
  rw [hset, Set.ncard_coe_finset,
    List.toFinset_card_of_nodup (numberedValues_ascending env).nodup]

/-- **Exact loading.**  The environment spells every number in the usual way, and the configuration
has no entries.

If below some number whose variable is set there is one whose variable is not, the slots are refused,
and the message names the least number that is missing and the greatest one that is set.

Otherwise there is exactly one slot for each number whose secret is not blank, in the order of the
numbers and under that number, with the trimmed secret and the trimmed model, unless the model is
blank.  If there is no such number, the slots are those of the legacy variables.

The search for the number that is missing takes at most one look more than there are numbers that are
set, however great the last of them is. -/
theorem loadSlots_numbered (hnames : (env.map Prod.fst).Nodup) (husual : UsualNumerals env) :
    (HasGap (IsSet env) →
        ∃ missing last, IsGreatest {n | IsSet env n} last ∧
          IsLeast {k | 1 ≤ k ∧ k < last ∧ ¬IsSet env k} missing ∧
          loadSlots [] env = .error (.configuration
            s!"{secretName missing} is missing while {secretName last} is set")) ∧
      (¬HasGap (IsSet env) →
        (∃ n value, Holds env n value ∧ Blank.isBlankText value = false) →
        ∃ slots, loadSlots [] env = .ok slots ∧
          slots.Pairwise (fun s t => s.entry < t.entry) ∧
          ∀ s, s ∈ slots ↔ ∃ n value, Holds env n value ∧ Blank.isBlankText value = false ∧
            s = ⟨⟨Blank.trim value⟩, Blank.nonBlank? (env.value? (modelName n)), .numbered, n⟩) ∧
      (¬HasGap (IsSet env) →
        (∀ n value, Holds env n value → Blank.isBlankText value = true) →
        loadSlots [] env = .ok (legacySlots env)) ∧
      ∀ last, IsGreatest {n | IsSet env n} last →
        let numbers := (numberedValues env).map Prod.fst
        (searchFrom numbers last 1).1 = firstMissing? numbers last ∧
          (searchFrom numbers last 1).2 ≤ {n | IsSet env n}.ncard + 1 := by
  have hset := husual.inUse_eq hnames
  refine ⟨?_, ?_, ?_, ?_⟩
  · rw [← hset]
    exact loadSlots_of_gap
  · rw [← hset]
    rintro hgap ⟨n, value, hvalue, hblank⟩
    have hslot := (husual.mem_usableSlots hnames).mpr ⟨n, value, hvalue, hblank, rfl⟩
    refine ⟨usableSlots env, ?_, usableSlots_ascending env, fun s => husual.mem_usableSlots hnames⟩
    rw [loadSlots_of_not_gap hgap, if_neg (List.ne_nil_of_mem hslot)]
  · rw [← hset]
    intro hgap hblank
    have hnone : usableSlots env = [] := by
      refine List.eq_nil_iff_forall_not_mem.mpr fun s hs => ?_
      obtain ⟨n, value, hvalue, husable, -⟩ := (husual.mem_usableSlots hnames).mp hs
      exact absurd (hblank n value hvalue) (Bool.eq_false_iff.mp husable)
    rw [loadSlots_of_not_gap hgap, if_pos hnone]
  · intro last _ numbers
    refine ⟨searchFrom_eq_firstMissing? numbers last, ?_⟩
    rw [← hset, ← length_numbers]
    exact searchFrom_looks_le numbers last 1

/-- The first entry and the one with the greatest number there is, a model, and a name without a
number. -/
def distantVariables : Environment :=
  [("FLEET_CREDENTIAL_18446744073709551615", "sk-last"), ("FLEET_CREDENTIAL_1", "sk-one"),
    ("FLEET_CREDENTIAL_1_MODEL", "m"), ("FLEET_CREDENTIAL_one", "sk-other")]

/-- The second entry is missing, and the search, which has 2 ^ 64 - 1 numbers before it, ends soon. -/
theorem loadSlots_numbered_distant :
    (distantVariables.map Prod.fst).Nodup ∧ UsualNumerals distantVariables ∧
      HasGap (IsSet distantVariables) ∧
      ∃ missing last, IsGreatest {n | IsSet distantVariables n} last ∧
        IsLeast {k | 1 ≤ k ∧ k < last ∧ ¬IsSet distantVariables k} missing ∧
        loadSlots [] distantVariables = .error (.configuration
          s!"{secretName missing} is missing while {secretName last} is set") ∧
        (searchFrom ((numberedValues distantVariables).map Prod.fst) last 1).2 ≤
          {n | IsSet distantVariables n}.ncard + 1 := by
  have hnames : (distantVariables.map Prod.fst).Nodup := by decide
  have husual : UsualNumerals distantVariables := by
    have hall : ∀ b ∈ distantVariables,
        ∀ n ∈ Decimal.parse? Json.maxNat64 (b.1.toList.drop numberedName.length),
          b.1.toList.drop numberedName.length = Decimal.digits n := by decide +kernel
    intro b hb rest n hname hparse
    have hrest : b.1.toList.drop numberedName.length = rest := by
      rw [hname, String.toList_ofList, ← String.length_toList]
      exact List.drop_left
    rw [← hrest] at hparse ⊢
    exact hall b hb n hparse
  have hgap : HasGap (IsSet distantVariables) := by
    refine ⟨2, Json.maxNat64, by decide, by decide, ⟨"sk-last", ?_⟩, ?_⟩
    · unfold Holds
      decide +kernel
    · rintro ⟨value, -, -, hvalue⟩
      have habsent : distantVariables.value? (secretName 2) = none := by decide +kernel
      rw [habsent] at hvalue
      cases hvalue
  obtain ⟨hrefused, -, -, hlooks⟩ := loadSlots_numbered hnames husual
  obtain ⟨missing, last, hlast, hmissing, hslots⟩ := hrefused hgap
  exact ⟨hnames, husual, hgap, missing, last, hlast, hmissing, hslots, (hlooks last hlast).2⟩

/-- A blank secret leaves no slot, and does not renumber the others. -/
example : loadSlots [] [("FLEET_CREDENTIAL_2_MODEL", " m "), ("FLEET_CREDENTIAL_2", " sk-two "),
    ("FLEET_CREDENTIAL_1", " ")] = .ok [⟨⟨"sk-two"⟩, some "m", .numbered, 2⟩] := by
  decide +kernel

end InferenceRouting.Credential
