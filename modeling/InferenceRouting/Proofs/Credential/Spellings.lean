import InferenceRouting.Proofs.Credential.Loading
import Mathlib.Data.List.TakeWhile

/-!
# Several spellings of one number

The environment gives its variables in no order of its own.  A number can be spelled in several ways,
with a plus sign or with zeros in front, so several variables may have one number, and then the value
of the last one stays.

The slots are nevertheless the same in every order when the values of one number are the same up to
the white space around them (`ValuesAgree`), when a gap refuses them all, or when the configuration
has entries; and these are the only cases (`loadSlots_perm_iff`).  With every number in its usual
spelling the order never matters (`UsualNumerals.loadSlots_perm`).
-/

namespace InferenceRouting.Credential

variable {n : Nat} {value : String} {b c : String × String} {entries : List Entry}
  {slots : List Slot} {env other : Environment}

/-- The variables with one number have the same value up to the white space around it. -/
def ValuesAgree (env : Environment) : Prop :=
  ∀ b ∈ env, ∀ c ∈ env, ∀ n, entryNumber? b.1 = some n → entryNumber? c.1 = some n →
    Blank.trim b.2 = Blank.trim c.2

/-! ## Trimmed values -/

/-- Nothing is left of a blank text. -/
theorem trimChars_eq_nil_iff {cs : List Char} :
    Blank.trimChars cs = [] ↔ ∀ c ∈ cs, Blank.isBlank c = true := by
  unfold Blank.trimChars
  rw [List.reverse_eq_nil_iff, List.dropWhile_eq_nil_iff]
  simp only [List.mem_reverse]
  refine ⟨fun h => ?_, fun h c hc => h c ((List.dropWhile_sublist _).subset hc)⟩
  rw [← List.dropWhile_eq_nil_iff]
  -- what is left in front begins with a character that is not blank
  have hfirst := List.head?_dropWhile_not Blank.isBlank cs
  cases hrest : cs.dropWhile Blank.isBlank with
  | nil => rfl
  | cons x rest =>
      rw [hrest] at h hfirst
      exact absurd (h x List.mem_cons_self) (Bool.eq_false_iff.mp hfirst)

/-- Nothing is left of a blank text, and something of any other. -/
theorem trim_eq_empty_iff : Blank.trim value = "" ↔ Blank.isBlankText value = true := by
  unfold Blank.trim Blank.isBlankText
  rw [String.ofList_eq_empty_iff, trimChars_eq_nil_iff, List.all_eq_true]

/-- Texts that are the same up to blanks are both blank or neither. -/
theorem isBlankText_congr {other : String} (h : Blank.trim value = Blank.trim other) :
    Blank.isBlankText value = Blank.isBlankText other := by
  rw [Bool.eq_iff_iff, ← trim_eq_empty_iff, ← trim_eq_empty_iff, h]

/-! ## Another order -/

/-- The order of the variables does not matter to which numbers are in use. -/
theorem inUse_perm (h : other.Perm env) : InUse other = InUse env := by
  funext n
  exact propext (exists_congr fun b => and_congr_left fun _ => h.mem_iff)

/-- Nor to the value of a variable. -/
theorem value?_perm (hnames : (env.map Prod.fst).Nodup) (h : other.Perm env) (name : String) :
    other.value? name = env.value? name :=
  Keyed.lookup_perm hnames h name

/-- The value of a number is that of one of its variables. -/
theorem exists_of_lastValue? (h : lastValue? env n = some value) :
    ∃ b ∈ env, entryNumber? b.1 = some n ∧ b.2 = value := by
  obtain ⟨b, hb, hread⟩ : ∃ b ∈ env, numbered? b = some (n, value) := by
    simpa using Keyed.mem_of_lookup h
  obtain ⟨m, hm, heq⟩ := Option.map_eq_some_iff.mp hread
  cases heq
  exact ⟨b, hb, hm, rfl⟩

/-- When the values of each number agree, the order of the variables adds no usable slot. -/
theorem ValuesAgree.usableSlots_subset (h : ValuesAgree env) (hnames : (env.map Prod.fst).Nodup)
    (hperm : other.Perm env) {s : Slot} (hs : s ∈ usableSlots other) : s ∈ usableSlots env := by
  obtain ⟨n, value, hvalue, hblank, rfl⟩ := mem_usableSlots.mp hs
  obtain ⟨b, hb, hn, rfl⟩ := exists_of_lastValue? hvalue
  have hused : InUse env n := ⟨b, hperm.mem_iff.mp hb, hn⟩
  obtain ⟨last, hlast⟩ := Option.isSome_iff_exists.mp (lastValue?_isSome.mpr hused)
  obtain ⟨c, hc, hcn, rfl⟩ := exists_of_lastValue? hlast
  have htrim : Blank.trim b.2 = Blank.trim c.2 := h b (hperm.mem_iff.mp hb) c hc n hn hcn
  refine mem_usableSlots.mpr ⟨n, c.2, hlast, ?_, ?_⟩
  · rw [← isBlankText_congr htrim, hblank]
  · rw [htrim, value?_perm hnames hperm]

/-- Nor to whether spellings of one number agree. -/
theorem ValuesAgree.perm (h : ValuesAgree env) (hperm : other.Perm env) : ValuesAgree other :=
  fun b hb c hc => h b (hperm.mem_iff.mp hb) c (hperm.mem_iff.mp hc)

/-- If they agree, the slots do not depend on the order. -/
theorem ValuesAgree.usableSlots_perm (h : ValuesAgree env) (hnames : (env.map Prod.fst).Nodup)
    (hperm : other.Perm env) : usableSlots other = usableSlots env := by
  have hnames' : (other.map Prod.fst).Nodup := (hperm.map Prod.fst).nodup_iff.mpr hnames
  have hdistinct (env : Environment) : (usableSlots env).Nodup :=
    (usableSlots_ascending env).imp fun hlt heq => absurd (heq ▸ hlt) (Nat.lt_irrefl _)
  have hslots : (usableSlots other).Perm (usableSlots env) :=
    (List.perm_ext_iff_of_nodup (hdistinct other) (hdistinct env)).mpr fun s =>
      ⟨h.usableSlots_subset hnames hperm,
        (h.perm hperm).usableSlots_subset hnames' hperm.symm⟩
  exact hslots.eq_of_pairwise (fun s t _ _ hst hts => absurd hst (Nat.lt_asymm hts))
    (usableSlots_ascending other) (usableSlots_ascending env)

/-- The slot of the single variable never depends on it. -/
theorem legacySlots_perm (hnames : (env.map Prod.fst).Nodup) (hperm : other.Perm env) :
    legacySlots other = legacySlots env := by
  have hvalue : other.value? = env.value? := funext (value?_perm hnames hperm)
  unfold legacySlots
  rw [hvalue]

/-- A gap is reported alike in every order. -/
theorem loadSlots_perm_of_gap (h : HasGap (InUse env)) (hperm : other.Perm env) :
    loadSlots [] other = loadSlots [] env := by
  have hused := inUse_perm hperm
  obtain ⟨missing, last, hlast, hmissing, hslots⟩ := loadSlots_of_gap h
  obtain ⟨missing', last', hlast', hmissing', hslots'⟩ := loadSlots_of_gap (hused.symm ▸ h)
  rw [hused] at hlast' hmissing'
  obtain rfl := hlast'.unique hlast
  obtain rfl := hmissing'.unique hmissing
  rw [hslots, hslots']

theorem ValuesAgree.loadSlots_perm (h : ValuesAgree env) (hnames : (env.map Prod.fst).Nodup)
    (hperm : other.Perm env) : loadSlots [] other = loadSlots [] env := by
  by_cases hgap : HasGap (InUse env)
  · exact loadSlots_perm_of_gap hgap hperm
  · have hgap' : ¬HasGap (InUse other) := (inUse_perm hperm).symm ▸ hgap
    rw [loadSlots_of_not_gap hgap, loadSlots_of_not_gap hgap', h.usableSlots_perm hnames hperm,
      legacySlots_perm hnames hperm]

/-- In the usual spelling a number has one variable. -/
theorem UsualNumerals.valuesAgree (h : UsualNumerals env) (hnames : (env.map Prod.fst).Nodup) :
    ValuesAgree env := by
  intro b hb c hc n hbn hcn
  have hname : c.1 = b.1 := (h.eq_secretName hc hcn).trans (h.eq_secretName hb hbn).symm
  rw [Keyed.eq_of_mem hnames hb hc hname]

/-- **The usual spelling.**  With every number spelled in the usual way the order of the variables
does not matter. -/
theorem UsualNumerals.loadSlots_perm (h : UsualNumerals env) (hnames : (env.map Prod.fst).Nodup)
    (hperm : other.Perm env) : loadSlots [] other = loadSlots [] env :=
  (h.valuesAgree hnames).loadSlots_perm hnames hperm

/-! ## The last value shows -/

theorem source_of_mem_legacySlots {s : Slot} (hs : s ∈ legacySlots env) : s.source = .legacy := by
  obtain ⟨⟨⟨keyName, modelName⟩, i⟩, -, hslot⟩ := List.mem_filterMap.mp hs
  dsimp only at hslot
  split at hslot
  · rw [(trimmedSlot?_eq_some.mp hslot).2]
  · cases hslot

/-- The secret of a numbered slot is the trimmed value that stayed for its number. -/
theorem mem_secrets_iff (hgap : ¬HasGap (InUse env)) (hslots : loadSlots [] env = .ok slots)
    {secret : Secret} :
    (∃ s ∈ slots, s.source = .numbered ∧ s.entry = n ∧ s.secret = secret) ↔
      ∃ value, lastValue? env n = some value ∧ Blank.isBlankText value = false ∧
        secret = ⟨Blank.trim value⟩ := by
  rw [loadSlots_of_not_gap hgap] at hslots
  cases hslots
  constructor
  · rintro ⟨s, hs, hsource, rfl, rfl⟩
    split at hs
    · exact absurd ((source_of_mem_legacySlots hs).symm.trans hsource) (by decide)
    · obtain ⟨n, value, hvalue, hblank, rfl⟩ := mem_usableSlots.mp hs
      exact ⟨value, hvalue, hblank, rfl⟩
  · rintro ⟨value, hvalue, hblank, rfl⟩
    have hs := mem_usableSlots.mpr ⟨n, value, hvalue, hblank, rfl⟩
    rw [if_neg (List.ne_nil_of_mem hs)]
    exact ⟨_, hs, rfl, rfl, rfl⟩

/-- The value of the last variable stays. -/
theorem lastValue?_concat (h : entryNumber? b.1 = some n) :
    lastValue? (env ++ [b]) n = some b.2 := by
  have hread : numbered? b = some (n, b.2) := by
    unfold numbered?
    rw [h]
    rfl
  unfold lastValue?
  rw [List.filterMap_append, List.filterMap_cons_some hread]
  simp

theorem erase_concat_perm (hb : b ∈ env) : (env.erase b ++ [b]).Perm env :=
  List.perm_append_comm.trans (List.perm_cons_erase hb).symm

/-- When the order does not matter, every variable shows what it would show as the last one. -/
theorem mem_secrets_of_perm (hgap : ¬HasGap (InUse env)) (hslots : loadSlots [] env = .ok slots)
    (h : ∀ other, other.Perm env → loadSlots [] other = loadSlots [] env) (hb : b ∈ env)
    (hn : entryNumber? b.1 = some n) {secret : Secret} :
    (∃ s ∈ slots, s.source = .numbered ∧ s.entry = n ∧ s.secret = secret) ↔
      Blank.isBlankText b.2 = false ∧ secret = ⟨Blank.trim b.2⟩ := by
  have hperm := erase_concat_perm hb
  have hgap' : ¬HasGap (InUse (env.erase b ++ [b])) := (inUse_perm hperm).symm ▸ hgap
  rw [mem_secrets_iff hgap' ((h _ hperm).trans hslots), lastValue?_concat hn]
  simp

/-- When the order does not matter, the values of each number agree. -/
theorem valuesAgree_of_perm (hgap : ¬HasGap (InUse env))
    (h : ∀ other, other.Perm env → loadSlots [] other = loadSlots [] env) : ValuesAgree env := by
  intro b hb c hc n hbn hcn
  have hshown {secret : Secret} :
      (Blank.isBlankText b.2 = false ∧ secret = ⟨Blank.trim b.2⟩) ↔
        (Blank.isBlankText c.2 = false ∧ secret = ⟨Blank.trim c.2⟩) := by
    rw [← mem_secrets_of_perm hgap (loadSlots_of_not_gap hgap) h hb hbn,
      mem_secrets_of_perm hgap (loadSlots_of_not_gap hgap) h hc hcn]
  cases hblank : Blank.isBlankText b.2 with
  | false => exact congrArg Secret.text (hshown.mp ⟨hblank, rfl⟩).2
  | true =>
      have hother : Blank.isBlankText c.2 = true := by
        cases husable : Blank.isBlankText c.2 with
        | true => rfl
        | false => exact absurd hblank (Bool.eq_false_iff.mp (hshown.mpr ⟨husable, rfl⟩).1)
      rw [trim_eq_empty_iff.mpr hblank, trim_eq_empty_iff.mpr hother]

/-- **The order of the variables.**  Whatever the order in which an environment gives its variables,
the slots are the same, or the same error, exactly when the configuration has entries, a number is
missing, or the variables with one number have the same value up to the white space around it. -/
theorem loadSlots_perm_iff (hnames : (env.map Prod.fst).Nodup) :
    (∀ other, other.Perm env → loadSlots entries other = loadSlots entries env) ↔
      entries ≠ [] ∨ HasGap (InUse env) ∨ ValuesAgree env := by
  by_cases hentries : entries = []
  · subst hentries
    constructor
    · intro h
      by_cases hgap : HasGap (InUse env)
      · exact .inr (.inl hgap)
      · exact .inr (.inr (valuesAgree_of_perm hgap h))
    · rintro (hentries | hgap | hagree) other hperm
      · exact absurd rfl hentries
      · exact loadSlots_perm_of_gap hgap hperm
      · exact hagree.loadSlots_perm hnames hperm
  · refine iff_of_true (fun other _ => ?_) (.inl hentries)
    simp only [loadSlots, List.isEmpty_iff, hentries, if_false]

/-- Two spellings of the first number, with two secrets. -/
def twoSpellings : Environment :=
  [("FLEET_CREDENTIAL_1", "sk-one"), ("FLEET_CREDENTIAL_01", "sk-other")]

/-- Their order matters: nothing is missing, and the values do not agree. -/
theorem loadSlots_perm_iff_two :
    (twoSpellings.map Prod.fst).Nodup ∧
      ¬∀ other, other.Perm twoSpellings → loadSlots [] other = loadSlots [] twoSpellings := by
  have hnames : (twoSpellings.map Prod.fst).Nodup := by decide
  have hfirst : entryNumber? "FLEET_CREDENTIAL_1" = some 1 := by decide +kernel
  have hsecond : entryNumber? "FLEET_CREDENTIAL_01" = some 1 := by decide +kernel
  refine ⟨hnames, fun h => ?_⟩
  rcases (loadSlots_perm_iff hnames).mp h with hentries | ⟨k, n, hpos, hlt, ⟨b, hb, hn⟩, -⟩ | hagree
  · exact hentries rfl
  · have hone : n = 1 := by
      rcases List.mem_cons.mp hb with rfl | hb
      · exact Option.some.inj (hn.symm.trans hfirst)
      · obtain rfl := List.mem_singleton.mp hb
        exact Option.some.inj (hn.symm.trans hsecond)
    omega
  · have htrim := hagree _ List.mem_cons_self _ (List.mem_cons_of_mem _ List.mem_cons_self) 1
      hfirst hsecond
    exact absurd htrim (by decide +kernel)

/-- The same variables in two orders give two secrets for the first entry. -/
theorem two_spellings_differ :
    (twoSpellings.map Prod.fst).Nodup ∧ twoSpellings.reverse.Perm twoSpellings ∧
      loadSlots [] twoSpellings = .ok [⟨⟨"sk-other"⟩, none, .numbered, 1⟩] ∧
      loadSlots [] twoSpellings.reverse = .ok [⟨⟨"sk-one"⟩, none, .numbered, 1⟩] := by
  decide +kernel

end InferenceRouting.Credential
