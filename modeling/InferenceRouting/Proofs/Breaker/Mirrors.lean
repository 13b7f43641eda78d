import InferenceRouting.Proofs.Breaker.Handling
import Mathlib.Logic.Function.Basic

/-!
# The breakers of one key

Where only one key is used, fewer breakers are made, and those of the key have other numbers.  A
registry *mirrors* a key of another (`Registry.Mirrors`) if it has the entries of that key,
renumbered, and nothing else.

What is handled under other keys is not seen in the mirror (`Mirrors.handles`); what is done to a
breaker of the key happens in the mirror in the same way, and tells the same.
-/

namespace InferenceRouting

/-- An entry under another number. -/
def BreakerEntry.renumber (ρ : Nat → Nat) (e : BreakerEntry) : BreakerEntry :=
  { e with id := ρ e.id }

/-- A permission for an entry under another number. -/
def BreakerTicket.renumber (ρ : Nat → Nat) (t : BreakerTicket) : BreakerTicket :=
  { t with entry := ρ t.entry }

namespace Registry

variable {r s r' : Registry} {ρ : Nat → Nat} {p : String → Prop} {key k : String} {id now : Nat}
  {e : BreakerEntry} {α : Type}

/-- The entries of a key in a list, renumbered. -/
def mirrored (key : String) (ρ : Nat → Nat) (l : List BreakerEntry) : List BreakerEntry :=
  (l.filter (·.breaker.name == key)).map (·.renumber ρ)

/-- A registry that has the entries of one key of another, renumbered, and nothing else. -/
structure Mirrors (key : String) (ρ : Nat → Nat) (r r' : Registry) : Prop where
  wellFormed : r.WellFormed
  wellFormed' : r'.WellFormed
  settings : (r'.config, r'.timersEnabled) = (r.config, r.timersEnabled)
  entries : r'.entries = mirrored key ρ r.entries
  meters : r'.meters = r.meters.filter (·.1 = key)

/-- A change of entries that keeps names and numbers, seen in the mirror. -/
theorem mirrored_map {f g : BreakerEntry → BreakerEntry} {l : List BreakerEntry}
    (hname : ∀ e ∈ l, (f e).breaker.name = e.breaker.name)
    (hg : ∀ e ∈ l, e.breaker.name = key → (f e).renumber ρ = g (e.renumber ρ)) :
    mirrored key ρ (l.map f) = (mirrored key ρ l).map g := by
  induction l with
  | nil => rfl
  | cons e rest ih =>
      have ih := ih (fun x hx => hname x (List.mem_cons_of_mem e hx))
        fun x hx => hg x (List.mem_cons_of_mem e hx)
      have hsame := hname e List.mem_cons_self
      unfold mirrored at ih ⊢
      by_cases hkey : e.breaker.name = key
      · have hone := hg e List.mem_cons_self hkey
        simp [hsame, hkey, hone, ih]
      · simp [hsame, hkey, ih]

/-- Entries that are left out for a reason that does not lie in their number are left out in the
mirror. -/
theorem mirrored_filter {q : BreakerEntry → Bool} (hq : ∀ e, q (e.renumber ρ) = q e)
    (l : List BreakerEntry) : mirrored key ρ (l.filter q) = (mirrored key ρ l).filter q := by
  have hcomp : q ∘ BreakerEntry.renumber ρ = q := funext hq
  simp only [mirrored, List.filter_map, List.filter_filter, hcomp]
  congr 2
  funext e
  exact Bool.and_comm _ _

theorem modify_eq (he : r.entry? id = some e) (f : Breaker → Breaker × α) :
    r.modify id f = ({ r with entries := r.entries.map fun x : BreakerEntry =>
        if x.id = id then { x with breaker := (f (r.loaded e)).1 } else x }.setMeters
      (f (r.loaded e)).1.name (f (r.loaded e)).1.meters, some (f (r.loaded e)).2) := by
  unfold modify
  rw [he]
  rfl

namespace Mirrors

/-- The mirror of an empty registry. -/
theorem new (key : String) (config : BreakerConfig) (timersEnabled : Bool) :
    Mirrors key (fun n => n) { config, timersEnabled } { config, timersEnabled } where
  wellFormed := (Reachable.new config timersEnabled).wellFormed
  wellFormed' := (Reachable.new config timersEnabled).wellFormed
  settings := rfl
  entries := rfl
  meters := rfl

/-- All entries of the mirror are of the key. -/
theorem ofKey_eq (h : Mirrors key ρ r r') : r'.ofKey key = (r.ofKey key).map (·.renumber ρ) := by
  unfold ofKey
  rw [h.entries, mirrored, List.filter_map]
  have hcomp : ((·.breaker.name == key) : BreakerEntry → Bool) ∘ BreakerEntry.renumber ρ =
      (·.breaker.name == key) := rfl
  rw [hcomp, List.filter_filter]
  simp

/-- The key leads to the same breaker in the mirror. -/
theorem find?_eq (h : Mirrors key ρ r r') : r'.find? key = (r.find? key).map (·.renumber ρ) := by
  unfold Registry.find?
  rw [h.entries, mirrored, List.find?_map, List.find?_filter]
  congr 2
  funext e
  cases hname : (e.breaker.name == key) <;> simp [BreakerEntry.renumber, hname]

/-- What is published under the key is in the mirror. -/
theorem metersOf_eq (h : Mirrors key ρ r r') : r'.metersOf key = r.metersOf key := by
  unfold metersOf
  rw [h.meters, Keyed.lookup_eq_find?, List.find?_filter, Keyed.lookup_eq_find?]
  congr 3
  funext m
  simp [beq_eq_decide]

/-- The renumbering keeps the entries of the key apart. -/
theorem injOn (h : Mirrors key ρ r r') {x : BreakerEntry} (hx : x ∈ r.entries)
    (he : e ∈ r.entries) (hxkey : x.breaker.name = key) (hkey : e.breaker.name = key)
    (heq : ρ x.id = ρ e.id) : x.id = e.id := by
  have hdistinct : ((r.entries.filter (·.breaker.name == key)).map fun y => ρ y.id).Nodup := by
    have hids := h.wellFormed'.distinct
    rw [h.entries, mirrored, List.map_map] at hids
    exact hids
  have hmem : ∀ {y}, y ∈ r.entries → y.breaker.name = key →
      y ∈ r.entries.filter (·.breaker.name == key) :=
    fun hy hname => List.mem_filter.mpr ⟨hy, by simp [hname]⟩
  rw [Keyed.eq_of_mem hdistinct (hmem he hkey) (hmem hx hxkey) heq]

/-- An entry of the key is found in the mirror under its other number. -/
theorem entry?_eq (h : Mirrors key ρ r r') (he : e ∈ r.entries) (hkey : e.breaker.name = key) :
    r'.entry? (ρ e.id) = some (e.renumber ρ) := by
  have hmem : e.renumber ρ ∈ r'.entries := by
    rw [h.entries]
    exact List.mem_map_of_mem (List.mem_filter.mpr ⟨he, by simp [hkey]⟩)
  exact h.wellFormed'.entry?_eq hmem

/-- The breaker of an entry of the key is the same in the mirror, with what is published. -/
theorem loaded_eq (h : Mirrors key ρ r r') (hkey : e.breaker.name = key) :
    r'.loaded (e.renumber ρ) = r.loaded e := by
  have hmeters : r'.metersOf e.breaker.name = r.metersOf e.breaker.name := hkey ▸ h.metersOf_eq
  unfold loaded BreakerEntry.renumber
  dsimp only
  rw [hmeters]

/-- **Own changes.**  A breaker of the key is changed in the mirror in the same way, and tells the
same. -/
theorem modify (h : Mirrors key ρ r r') (hid : r.nameOf? id = some key)
    {f : Breaker → Breaker × α} (hf : ∀ b : Breaker, b.Turns (f b).1) :
    Mirrors key ρ (r.modify id f).1 (r'.modify (ρ id) f).1 ∧
      (r'.modify (ρ id) f).2 = (r.modify id f).2 := by
  obtain ⟨e, he, hmem, rfl, hkey⟩ := exists_of_nameOf? hid
  have he' := h.entry?_eq hmem hkey
  have hname : (f (r.loaded e)).1.name = key := (hf (r.loaded e)).advances.name.trans hkey
  have hwell := h.wellFormed.modify e.id f
  have hwell' := h.wellFormed'.modify (ρ e.id) f
  rw [modify_eq he] at hwell ⊢
  rw [modify_eq he', h.loaded_eq hkey] at hwell' ⊢
  refine ⟨⟨hwell, hwell', h.settings, ?_, ?_⟩, rfl⟩
  · change r'.entries.map _ = mirrored key ρ (r.entries.map _)
    rw [h.entries]
    refine (mirrored_map (fun x hx => ?_) fun x hx hxkey => ?_).symm
    · split
      · rename_i hid
        rw [Keyed.eq_of_mem h.wellFormed.distinct hmem hx hid, hname, hkey]
      · rfl
    · by_cases hid : x.id = e.id
      · simp [BreakerEntry.renumber, hid]
      · have hother : ρ x.id ≠ ρ e.id := fun heq => hid (h.injOn hx hmem hxkey hkey heq)
        simp [BreakerEntry.renumber, hid, hother]
  · simp [setMeters, hname, h.meters, List.filter_filter, Bool.and_comm]

/-- **Own calls.**  The calls through a breaker of the key are counted in the mirror. -/
theorem countCalls (h : Mirrors key ρ r r') (hid : r.nameOf? id = some key) (f : Nat → Nat) :
    Mirrors key ρ (r.countCalls id f) (r'.countCalls (ρ id) f) := by
  obtain ⟨e, -, hmem, rfl, hkey⟩ := exists_of_nameOf? hid
  refine ⟨h.wellFormed.countCalls e.id f, h.wellFormed'.countCalls (ρ e.id) f, h.settings, ?_,
    h.meters⟩
  unfold Registry.countCalls
  rw [h.entries, mirrored_filter (fun _ => rfl)]
  refine congrArg _ (mirrored_map (fun x _ => ?_) fun x hx hxkey => ?_).symm
  · split <;> rfl
  · by_cases hid : x.id = e.id
    · simp [BreakerEntry.renumber, hid]
    · have hother : ρ x.id ≠ ρ e.id := fun heq => hid (h.injOn hx hmem hxkey hkey heq)
      simp [BreakerEntry.renumber, hid, hother]

/-- **Others' changes.**  A change of a breaker of another key is not seen in the mirror. -/
theorem modify_other (h : Mirrors key ρ r r') (hid : r.nameOf? id ≠ some key)
    {f : Breaker → Breaker × α} (hf : ∀ b : Breaker, b.Turns (f b).1) :
    Mirrors key ρ (r.modify id f).1 r' := by
  cases he : r.entry? id with
  | none =>
      have hnone : r.modify id f = (r, none) := by simp [Registry.modify, he]
      exact hnone ▸ h
  | some e =>
      obtain ⟨hmem, rfl⟩ := Keyed.of_find?_eq_some he
      have hsame : (f (r.loaded e)).1.name = e.breaker.name := (hf (r.loaded e)).advances.name
      have hkey : e.breaker.name ≠ key := fun heq =>
        hid ((h.wellFormed.nameOf?_eq hmem).trans (congrArg some heq))
      have hwell := h.wellFormed.modify e.id f
      rw [modify_eq he] at hwell ⊢
      refine ⟨hwell, h.wellFormed', h.settings, ?_, ?_⟩
      · change r'.entries = mirrored key ρ (r.entries.map _)
        rw [h.entries, mirrored_map (g := fun x => x) (fun x hx => ?_) fun x hx hxkey => ?_,
          List.map_id']
        · split
          · rename_i hid
            rw [Keyed.eq_of_mem h.wellFormed.distinct hmem hx hid, hsame]
          · rfl
        · have hother : x.id ≠ e.id := fun heq =>
            hkey ((Keyed.eq_of_mem h.wellFormed.distinct hmem hx heq) ▸ hxkey)
          simp [hother]
      · have hname : (f (r.loaded e)).1.name ≠ key := hsame ▸ hkey
        simp only [setMeters, List.filter_cons, hname, List.filter_filter, h.meters]
        refine List.filter_congr fun m _ => ?_
        by_cases hm : m.1 = key
        · simp [hm, hname.symm]
        · simp [hm]

/-- **Others' calls.**  The calls through breakers of other keys are not seen in the mirror. -/
theorem countCalls_other (h : Mirrors key ρ r r') (hid : r.nameOf? id ≠ some key)
    (f : Nat → Nat) : Mirrors key ρ (r.countCalls id f) r' := by
  refine ⟨h.wellFormed.countCalls id f, h.wellFormed', h.settings, ?_, h.meters⟩
  have hbusy : r'.entries.filter (fun e => e.registered || e.calls != 0) = r'.entries :=
    List.filter_eq_self.mpr fun e he => by simpa using h.wellFormed'.busy e he
  unfold Registry.countCalls
  rw [mirrored_filter (fun _ => rfl), mirrored_map (g := fun x => x) (fun x _ => ?_)
    fun x hx hxkey => ?_, List.map_id', ← h.entries, hbusy]
  · split <;> rfl
  · have hother : x.id ≠ id := fun heq =>
      hid (heq ▸ (h.wellFormed.nameOf?_eq hx).trans (congrArg some hxkey))
    simp [hother]

/-- What is handled under other keys is not seen in the mirror. -/
theorem handles (h : Mirrors key ρ r r') (hs : Handles p r s) (hp : ¬p key) :
    Mirrors key ρ s r' := by
  induction hs with
  | refl => exact h
  | modify _ id f hf hname ih => exact ih.modify_other (fun hid => hp (hname key hid)) hf
  | countCalls _ id f hname ih => exact ih.countCalls_other (fun hid => hp (hname key hid)) f

/-- **Making.**  A breaker of the key is made in the mirror too, under another number. -/
theorem getOrCreate (h : Mirrors key ρ r r') (config : Option BreakerConfig) :
    ∃ ρ', Mirrors key ρ' (r.getOrCreate key config).1 (r'.getOrCreate key config).1 ∧
      ρ' (r.getOrCreate key config).2 = (r'.getOrCreate key config).2 ∧
      ∀ n, n < r.nextId → ρ' n = ρ n := by
  have hwell := h.wellFormed.getOrCreate key config
  have hwell' := h.wellFormed'.getOrCreate key config
  have hfind := h.find?_eq
  cases hfound : r.find? key with
  | some e =>
      have hfound' : r'.find? key = some (e.renumber ρ) := by rw [hfind, hfound]; rfl
      rw [getOrCreate_of_some hfound, getOrCreate_of_some hfound']
      exact ⟨ρ, h, rfl, fun _ _ => rfl⟩
  | none =>
      have hfound' : r'.find? key = none := by rw [hfind, hfound]; rfl
      let ρ' := Function.update ρ r.nextId r'.nextId
      have hold : ∀ n, n < r.nextId → ρ' n = ρ n := fun n hn =>
        Function.update_of_ne (Nat.ne_of_lt hn) _ _
      have hnew : ρ' r.nextId = r'.nextId := Function.update_self _ _ _
      have hmirrored : mirrored key ρ' r.entries = mirrored key ρ r.entries :=
        List.map_congr_left fun e he => by
          rw [BreakerEntry.renumber, hold e.id (h.wellFormed.recent e (List.mem_filter.mp he).1)]
          rfl
      obtain ⟨hconfig, htimers⟩ := Prod.mk.inj h.settings
      rw [getOrCreate_of_none hfound] at hwell ⊢
      rw [getOrCreate_of_none hfound'] at hwell' ⊢
      refine ⟨ρ', ⟨hwell, hwell', h.settings, ?_, h.meters⟩, hnew, hold⟩
      have hone : mirrored key ρ' [⟨r.nextId, true, 0,
          Breaker.new key (config.getD r.config) r.timersEnabled⟩] = [⟨r'.nextId, true, 0,
          Breaker.new key (config.getD r'.config) r'.timersEnabled⟩] := by
        simp [mirrored, Breaker.new, BreakerEntry.renumber, hnew, hconfig, htimers]
      change r'.entries ++ [_] = mirrored key ρ' (r.entries ++ [_])
      rw [← hone, h.entries, ← hmirrored]
      simp only [mirrored, List.filter_append, List.map_append]

/-- A breaker that is made for another key is not seen in the mirror. -/
theorem getOrCreate_other (h : Mirrors key ρ r r') (hk : k ≠ key)
    (config : Option BreakerConfig) : Mirrors key ρ (r.getOrCreate k config).1 r' := by
  refine ⟨h.wellFormed.getOrCreate k config, h.wellFormed', ?_, ?_, ?_⟩
  all_goals
    unfold Registry.getOrCreate
    split
  · exact h.settings
  · exact h.settings
  · exact h.entries
  · rw [h.entries]
    simp [mirrored, Breaker.new, hk]
  · exact h.meters
  · exact h.meters

/-- **Admission.**  A call through a breaker of the key is admitted in the mirror as well. -/
theorem enter (h : Mirrors key ρ r r') (hid : r.nameOf? id = some key) (now : Nat) :
    Mirrors key ρ (r.enter id now).1 (r'.enter (ρ id) now).1 ∧
      (r'.enter (ρ id) now).2 = (r.enter id now).2.map (·.renumber ρ) := by
  obtain ⟨hmirrors, hanswer⟩ := h.modify hid (f := (·.enter now)) fun b => .enter b now
  have hname := (nameOf?_modify (f := (·.enter now)) (fun b => .enter b now) r id id).trans hid
  unfold Registry.enter
  generalize r.modify id (·.enter now) = changed at hmirrors hanswer hname
  generalize r'.modify (ρ id) (·.enter now) = changed' at hmirrors hanswer
  obtain ⟨s, answer⟩ := changed
  obtain ⟨s', answer'⟩ := changed'
  obtain rfl : answer' = answer := hanswer
  rcases answer' with _ | _ | a
  · exact ⟨hmirrors, rfl⟩
  · exact ⟨hmirrors, rfl⟩
  · exact ⟨hmirrors.countCalls hname (· + 1), rfl⟩

/-- **Verdicts.**  The end of a call through a breaker of the key is settled in the mirror. -/
theorem settle (h : Mirrors key ρ r r') {t : BreakerTicket} (ht : r.nameOf? t.entry = some key)
    (now : Nat) (v : Verdict) : Mirrors key ρ (r.settle now t v) (r'.settle now (t.renumber ρ) v) := by
  have hmoves : ∀ b : Breaker, b.Turns (b.settle now t.admission v) := fun b => .settle b now _ v
  obtain ⟨hmirrors, -⟩ := h.modify ht (f := fun b => (b.settle now t.admission v, ())) hmoves
  have hname := (nameOf?_modify (f := fun b => (b.settle now t.admission v, ())) hmoves r
    t.entry t.entry).trans ht
  exact hmirrors.countCalls hname (· - 1)

theorem abandon (h : Mirrors key ρ r r') {t : BreakerTicket} (ht : r.nameOf? t.entry = some key) :
    Mirrors key ρ (r.abandon t) (r'.abandon (t.renumber ρ)) :=
  h.settle ht 0 .neutral

/-- A call that ends at once does so in the mirror, with the same result. -/
theorem execute (h : Mirrors key ρ r r') (hlead : r.Leads key id) (now : Nat)
    (outcome : Except RoutingError α) :
    Mirrors key ρ (r.execute id now outcome).1 (r'.execute (ρ id) now outcome).1 ∧
      (r'.execute (ρ id) now outcome).2 = (r.execute id now outcome).2 ∧
      (r.execute id now outcome).1.Leads key id := by
  obtain ⟨hmirrors, hanswer⟩ := h.enter (h.wellFormed.nameOf?_of_leads hlead) now
  obtain ⟨hwell, hentered⟩ := h.wellFormed.enter id now
  have hlead := hentered.leads key id hlead
  have hticket := @entry_of_enter r id now
  unfold Registry.execute
  generalize r.enter id now = entered at hmirrors hanswer hwell hlead hticket
  generalize r'.enter (ρ id) now = entered' at hmirrors hanswer
  obtain ⟨s, answer⟩ := entered
  obtain ⟨s', answer'⟩ := entered'
  obtain rfl : answer' = answer.map (·.renumber ρ) := hanswer
  cases answer with
  | error err => exact ⟨hmirrors, rfl, hlead⟩
  | ok ticket =>
      obtain rfl := hticket rfl
      exact ⟨hmirrors.settle (hwell.nameOf?_of_leads hlead) now _, rfl,
        (hwell.settle hlead now _).2.leads key _ hlead⟩

theorem execTimes (h : Mirrors key ρ r r') (now : Nat) (outcome : Except RoutingError Json)
    (n : Nat) (counts : Nat × Nat) (hlead : r.Leads key id) :
    Mirrors key ρ (BreakerSession.execTimes now outcome id n (r, counts)).1
        (BreakerSession.execTimes now outcome (ρ id) n (r', counts)).1 ∧
      (BreakerSession.execTimes now outcome (ρ id) n (r', counts)).2 =
        (BreakerSession.execTimes now outcome id n (r, counts)).2 := by
  induction n generalizing r r' counts with
  | zero => exact ⟨h, rfl⟩
  | succ n ih =>
      obtain ⟨hmirrors, hresult, hlead⟩ := h.execute hlead now outcome
      obtain ⟨succeeded, rejected⟩ := counts
      unfold BreakerSession.execTimes
      generalize r.execute id now outcome = executed at hmirrors hresult hlead
      generalize r'.execute (ρ id) now outcome = executed' at hmirrors hresult
      obtain ⟨s, result, made⟩ := executed
      obtain ⟨s', result', made'⟩ := executed'
      obtain ⟨rfl, rfl⟩ := Prod.mk.inj hresult
      rcases result' with err | value
      · cases err <;> exact ih hmirrors _ hlead
      · exact ih hmirrors _ hlead

/-- **Sweeps.**  What is done to each of a number of breakers, one after the other, is done in the
mirror to those of the key, and these tell the same. -/
theorem modifyEach (h : Mirrors key ρ r r') {f : Breaker → Breaker × α}
    (hf : ∀ b : Breaker, b.Turns (f b).1) {l : List BreakerEntry}
    (hl : ∀ e ∈ l, r.nameOf? e.id = some e.breaker.name) :
    Mirrors key ρ (r.modifyEach f (l.map (·.id))).1
        (r'.modifyEach f ((mirrored key ρ l).map (·.id))).1 ∧
      ∀ own : α → Bool, (∀ b, own (f b).2 = (b.name == key)) →
        (r'.modifyEach f ((mirrored key ρ l).map (·.id))).2 =
          (r.modifyEach f (l.map (·.id))).2.filter own := by
  induction l generalizing r r' with
  | nil => exact ⟨h, fun _ _ => rfl⟩
  | cons e rest ih =>
      have hname := hl e List.mem_cons_self
      have hrest : ∀ x ∈ rest, (r.modify e.id f).1.nameOf? x.id = some x.breaker.name :=
        fun x hx => (nameOf?_modify hf r e.id x.id).trans (hl x (List.mem_cons_of_mem e hx))
      obtain ⟨x, hx, -, -, hxname⟩ := exists_of_nameOf? hname
      have htold : (r.modify e.id f).2 = some (f (r.loaded x)).2 := by rw [modify_eq hx]
      by_cases hkey : e.breaker.name = key
      · obtain ⟨hmirrors, hsame⟩ := h.modify (hkey ▸ hname) hf
        obtain ⟨hafter, htells⟩ := ih hmirrors hrest
        have hmirrored : (mirrored key ρ (e :: rest)).map (·.id) =
            ρ e.id :: (mirrored key ρ rest).map (·.id) := by
          simp [mirrored, hkey, BreakerEntry.renumber]
        rw [hmirrored]
        refine ⟨hafter, fun own hown => ?_⟩
        have htrue : own (f (r.loaded x)).2 = true := by
          rw [hown]
          exact beq_iff_eq.mpr (hxname.trans hkey)
        simp [Registry.modifyEach, hsame, htold, htells own hown, htrue]
      · have hmirrors := h.modify_other (f := f) (fun hid => hkey (Option.some.inj (hname.symm.trans hid)))
          hf
        obtain ⟨hafter, htells⟩ := ih hmirrors hrest
        have hmirrored : (mirrored key ρ (e :: rest)).map (·.id) =
            (mirrored key ρ rest).map (·.id) := by
          simp [mirrored, hkey]
        rw [hmirrored]
        refine ⟨hafter, fun own hown => ?_⟩
        have hfalse : own (f (r.loaded x)).2 = false := by
          rw [hown]
          exact beq_false_of_ne fun heq => hkey (hxname.symm.trans heq)
        simp [Registry.modifyEach, htold, htells own hown, hfalse]

/-- A sweep over the entries with a property that does not lie in their number. -/
theorem sweep (h : Mirrors key ρ r r') {f : Breaker → Breaker × α}
    (hf : ∀ b : Breaker, b.Turns (f b).1) {q : BreakerEntry → Bool}
    (hq : ∀ e, q (e.renumber ρ) = q e) :
    Mirrors key ρ (r.modifyEach f ((r.entries.filter q).map (·.id))).1
        (r'.modifyEach f ((r'.entries.filter q).map (·.id))).1 ∧
      ∀ own : α → Bool, (∀ b, own (f b).2 = (b.name == key)) →
        (r'.modifyEach f ((r'.entries.filter q).map (·.id))).2 =
          (r.modifyEach f ((r.entries.filter q).map (·.id))).2.filter own := by
  rw [h.entries, ← mirrored_filter hq]
  exact h.modifyEach hf fun e he => h.wellFormed.nameOf?_eq (List.mem_filter.mp he).1

theorem resetAll (h : Mirrors key ρ r r') : Mirrors key ρ r.resetAll r'.resetAll := by
  unfold Registry.resetAll
  rw [foldl_update, foldl_update]
  exact (h.sweep (f := fun b => (b.reset, ())) (fun b => .reset b) (q := (·.registered))
    fun _ => rfl).1

theorem fireDue (h : Mirrors key ρ r r') (now : Nat) :
    Mirrors key ρ (r.fireDue now) (r'.fireDue now) := by
  unfold Registry.fireDue
  rw [foldl_update, foldl_update, h.entries]
  exact (h.modifyEach (f := fun b => (b.fireDue now, ())) (fun b => .fireDue b now)
    fun e he => h.wellFormed.nameOf?_eq he).1

theorem reports (h : Mirrors key ρ r r') (now : Nat) :
    Mirrors key ρ (r.reports now).1 (r'.reports now).1 ∧
      (r'.reports now).2 = (r.reports now).2.filter (·.name == key) := by
  rw [reports_eq, reports_eq]
  obtain ⟨hmirrors, htold⟩ := h.sweep (f := (·.report now)) (q := (·.registered))
    (fun b => (Breaker.Turns.refresh b now).trans (.quiet rfl)) fun _ => rfl
  refine ⟨hmirrors, htold (·.name == key) fun b => ?_⟩
  have hname : (b.report now).2.name = b.name := (Breaker.Turns.refresh b now).advances.name
  rw [hname]

theorem keys_eq (h : Mirrors key ρ r r') : r'.keys = r.keys.filter (· == key) := by
  unfold Registry.keys
  rw [h.entries, ← mirrored_filter (fun _ => rfl), List.filter_map, mirrored, List.map_map]
  rfl

theorem clear (h : Mirrors key ρ r r') : Mirrors key ρ r.clear r'.clear := by
  refine ⟨h.wellFormed.clear, h.wellFormed'.clear, h.settings, ?_, h.meters⟩
  unfold Registry.clear
  rw [h.entries, ← mirrored_filter (fun _ => rfl)]
  exact (mirrored_map (f := ({ · with registered := false })) (fun _ _ => rfl)
    fun _ _ _ => rfl).symm

theorem disableTimers (h : Mirrors key ρ r r') :
    Mirrors key ρ r.disableTimers r'.disableTimers := by
  let f : BreakerEntry → BreakerEntry := fun e => { e with breaker := e.breaker.disableTimers }
  refine ⟨h.wellFormed.of_map (g := f) (fun _ => rfl) rfl rfl,
    h.wellFormed'.of_map (g := f) (fun _ => rfl) rfl rfl,
    congrArg (fun settings : BreakerConfig × Bool => (settings.1, false)) h.settings, ?_, h.meters⟩
  unfold Registry.disableTimers
  rw [h.entries]
  exact (mirrored_map (f := f) (fun _ _ => rfl) fun _ _ _ => rfl).symm

theorem ring (h : Mirrors key ρ r r') (now nth : Nat) (timer : ResetTimer) :
    Mirrors key ρ (r.ring now key nth timer) (r'.ring now key nth timer) := by
  unfold Registry.ring
  rw [h.ofKey_eq, List.getElem?_map]
  cases he : (r.ofKey key)[nth]? with
  | none => exact h
  | some e =>
      obtain ⟨hmem, hname⟩ := List.mem_filter.mp (List.mem_of_getElem? he)
      have hid : r.nameOf? e.id = some key :=
        (h.wellFormed.nameOf?_eq hmem).trans (congrArg some (beq_iff_eq.mp hname))
      refine (h.modify (f := fun b => (_, ())) hid fun b => ?_).1
      split
      · exact .fireTimer b timer.generation
      · exact .refl b

end Mirrors

/-- A breaker that is made leaves the others their names. -/
theorem nameOf?_getOrCreate {i : Nat} (hi : i < r.nextId) (k : String)
    (config : Option BreakerConfig) : (r.getOrCreate k config).1.nameOf? i = r.nameOf? i := by
  cases hfound : r.find? k with
  | some e => rw [getOrCreate_of_some hfound]
  | none =>
      have hnew : r.nextId ≠ i := Nat.ne_of_gt hi
      rw [getOrCreate_of_none hfound]
      simp [nameOf?, entry?, List.find?_append, hnew]

end Registry

end InferenceRouting
