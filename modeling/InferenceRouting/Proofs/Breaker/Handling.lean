import InferenceRouting.Breaker.Traffic
import InferenceRouting.Proofs.Breaker.Entries

/-!
# What an operation handles

Apart from making a breaker, forgetting all keys and stopping all timers, an operation does two
things to a registry, any number of times: it changes a breaker by moves of its own, and it counts
the calls through one.  `Registry.Handles p r s` says that `s` comes of `r` in this way, and that
`p` holds of the names of all breakers that were handled.

No operation handles a breaker of a key that it does not concern (`BreakerSession.step_handles`), and
what is handled keeps its settings: the configuration under a key is the one it was first used with
(`BreakerSession.run_config`).
-/

namespace InferenceRouting

namespace Registry

variable {r s t : Registry} {p q : String → Prop} {key k name : String} {id i now : Nat}
  {e : BreakerEntry} {α : Type}

/-! ### Names -/

/-- An entry in the registry is known by its number. -/
theorem WellFormed.nameOf?_eq (h : r.WellFormed) (he : e ∈ r.entries) :
    r.nameOf? e.id = some e.breaker.name := by
  simp [nameOf?, h.entry?_eq he]

/-- A name belongs to an entry in the registry. -/
theorem exists_of_nameOf? (h : r.nameOf? id = some name) :
    ∃ e, r.entry? id = some e ∧ e ∈ r.entries ∧ e.id = id ∧ e.breaker.name = name := by
  obtain ⟨e, he, hname⟩ := Option.map_eq_some_iff.mp h
  obtain ⟨hmem, hid⟩ := Keyed.of_find?_eq_some he
  exact ⟨e, he, hmem, hid, hname⟩

/-- The breaker that a key leads to has the key for its name. -/
theorem WellFormed.nameOf?_of_leads (h : r.WellFormed) (hlead : r.Leads key id) :
    r.nameOf? id = some key := by
  obtain ⟨e, he, rfl⟩ := hlead
  obtain ⟨hmem, -, hname⟩ := of_find? he
  rw [h.nameOf?_eq hmem, hname]

/-- An entry with a name was made before the next one. -/
theorem WellFormed.lt_nextId (h : r.WellFormed) (hname : r.nameOf? id = some name) :
    id < r.nextId := by
  obtain ⟨e, -, hmem, rfl, -⟩ := exists_of_nameOf? hname
  exact h.recent e hmem

/-- A breaker that is changed by its own moves keeps its name. -/
theorem nameOf?_modify {f : Breaker → Breaker × α} (hf : ∀ b : Breaker, b.Turns (f b).1) (r : Registry)
    (id i : Nat) : (r.modify id f).1.nameOf? i = r.nameOf? i := by
  unfold modify
  cases he : r.entry? id with
  | none => rfl
  | some e =>
      have hid : e.id = id := (Keyed.of_find?_eq_some he).2
      have hname : (f (r.loaded e)).1.name = e.breaker.name := (hf _).advances.name
      let g : BreakerEntry → BreakerEntry := fun x =>
        if x.id = id then { x with breaker := (f (r.loaded e)).1 } else x
      have hfound : (r.entries.map g).find? (fun x => x.id == i) =
          (r.entries.find? fun x => x.id == i).map g := by
        rw [List.find?_map]
        congr 2
        funext x
        simp only [Function.comp_apply, g]
        split <;> rfl
      change ((r.entries.map g).find? fun x => x.id == i).map (·.breaker.name) = _
      rw [hfound, nameOf?, entry?]
      cases hx : r.entries.find? (fun x => x.id == i) with
      | none => rfl
      | some x =>
          by_cases hxid : x.id = id
          · have hxe : x = e := by
              have hi : id = i := hxid.symm.trans (Keyed.of_find?_eq_some hx).2
              rw [ entry?, hi, hx] at he
              exact Option.some.inj he
            subst hxe
            simp [g, hxid, hname]
          · simp [g, hxid]

/-- Counting calls makes no name known. -/
theorem WellFormed.nameOf?_of_countCalls (h : r.WellFormed) {f : Nat → Nat}
    (hname : (r.countCalls id f).nameOf? i = some name) : r.nameOf? i = some name := by
  obtain ⟨e, -, hmem, rfl, rfl⟩ := exists_of_nameOf? hname
  obtain ⟨x, hx, rfl⟩ := List.mem_map.mp (List.mem_filter.mp hmem).1
  have hsame : r.nameOf? x.id = some x.breaker.name := h.nameOf?_eq hx
  by_cases hid : x.id = id
  · simpa [hid] using hsame
  · simpa [hid] using hsame

/-- To forget all keys makes no name known. -/
theorem WellFormed.nameOf?_of_clear (h : r.WellFormed) (hname : r.clear.nameOf? i = some name) :
    r.nameOf? i = some name := by
  obtain ⟨e, -, hmem, rfl, rfl⟩ := exists_of_nameOf? hname
  obtain ⟨x, hx, rfl⟩ := List.mem_map.mp hmem
  have hsame : r.nameOf? x.id = some x.breaker.name := h.nameOf?_eq (List.mem_filter.mp hx).1
  exact hsame

/-- Stopping the timers leaves the names. -/
theorem nameOf?_disableTimers (r : Registry) (i : Nat) :
    r.disableTimers.nameOf? i = r.nameOf? i := by
  unfold nameOf? disableTimers Registry.entry?
  rw [List.find?_map, Option.map_map]
  rfl

/-! ### The configuration under a key -/

/-- The configuration of the breaker that a key leads to. -/
def configOf? (r : Registry) (key : String) : Option BreakerConfig :=
  (r.find? key).map (·.breaker.config)

/-- Entries that keep what keys and settings are read from leave the settings under all keys. -/
theorem configOf?_of_map {g : BreakerEntry → BreakerEntry} (hentries : s.entries = r.entries.map g)
    (hg : ∀ x ∈ r.entries, ((g x).registered, (g x).breaker.name, (g x).breaker.config) =
      (x.registered, x.breaker.name, x.breaker.config)) (key : String) :
    s.configOf? key = r.configOf? key := by
  simp only [Prod.mk.injEq] at hg
  unfold configOf? find?
  rw [hentries]
  generalize r.entries = l at hg
  induction l with
  | nil => rfl
  | cons x rest ih =>
      obtain ⟨hregistered, hname, hconfig⟩ := hg x List.mem_cons_self
      have ih := ih fun y hy => hg y (List.mem_cons_of_mem x hy)
      simp only [List.map_cons, List.find?_cons, hregistered, hname]
      split
      · simp [hconfig]
      · exact ih

/-- No change of a breaker changes its settings. -/
theorem configOf?_modify {f : Breaker → Breaker × α} (hf : ∀ b : Breaker, b.Turns (f b).1) (h : r.WellFormed)
    (id : Nat) (key : String) : (r.modify id f).1.configOf? key = r.configOf? key := by
  cases he : r.entry? id with
  | none => simp [modify, he]
  | some e =>
      obtain ⟨hreplaces, -⟩ := h.modify_replaces he f
      have hname : (f (r.loaded e)).1.name = e.breaker.name := (hf _).advances.name
      have hconfig : (f (r.loaded e)).1.config = e.breaker.config := (hf _).advances.config
      unfold configOf?
      by_cases hk : r.find? key = some e
      · rw [hk, (hreplaces.find? hname key).1 hk]
        simp [hconfig]
      · rw [(hreplaces.find? hname key).2 hk]

theorem configOf?_countCalls (r : Registry) (id : Nat) (f : Nat → Nat) (key : String) :
    (r.countCalls id f).configOf? key = r.configOf? key := by
  have hmap : ∀ l : List BreakerEntry,
      (l.filter fun e => e.registered || e.calls != 0).find?
          (fun e => e.registered && e.breaker.name == key) =
        l.find? fun e => e.registered && e.breaker.name == key := by
    intro l
    rw [List.find?_filter]
    congr 1
    funext e
    cases e.registered <;> simp [beq_eq_decide]
  let g : BreakerEntry → BreakerEntry := fun e =>
    if e.id = id then { e with calls := f e.calls } else e
  have hcounted : (r.countCalls id f).configOf? key =
      configOf? { r with entries := r.entries.map g } key := by
    unfold configOf? find? countCalls
    rw [hmap]
  rw [hcounted]
  exact configOf?_of_map (g := g) rfl (fun x _ => by simp only [g]; split <;> rfl) key

/-- A breaker that is there is not made again. -/
theorem getOrCreate_of_some (h : r.find? key = some e) (config : Option BreakerConfig) :
    r.getOrCreate key config = (r, e.id) := by
  simp [getOrCreate, h]

/-- A breaker that is not there is made with the settings given, or those of the registry. -/
theorem getOrCreate_of_none (h : r.find? key = none) (config : Option BreakerConfig) :
    r.getOrCreate key config = ({ r with
      entries := r.entries ++
        [⟨r.nextId, true, 0, Breaker.new key (config.getD r.config) r.timersEnabled⟩]
      nextId := r.nextId + 1 }, r.nextId) := by
  simp [getOrCreate, h]

/-- A breaker that is made settles the configuration under its key. -/
theorem configOf?_getOrCreate (r : Registry) (k : String) (config : Option BreakerConfig)
    (key : String) :
    (r.getOrCreate k config).1.configOf? key =
      if k = key then (r.configOf? key).or (some (config.getD r.config)) else r.configOf? key := by
  cases hfound : r.find? k with
  | some e =>
      rw [getOrCreate_of_some hfound]
      by_cases hk : k = key
      · subst hk
        simp [configOf?, hfound]
      · simp [hk]
  | none =>
      unfold configOf?
      rw [find?_getOrCreate hfound]
      by_cases hk : k = key
      · subst hk
        simp [hfound, Breaker.new]
      · simp [hk]

/-! ### Handling -/

/-- One registry comes of another by changes to breakers whose names have a property, by their own
moves, and to the numbers of calls through them. -/
inductive Handles (p : String → Prop) (r : Registry) : Registry → Prop
  | refl : Handles p r r
  | modify {s : Registry} {α : Type} (h : Handles p r s) (id : Nat) (f : Breaker → Breaker × α)
      (hf : ∀ b : Breaker, b.Turns (f b).1) (hp : ∀ name, s.nameOf? id = some name → p name) :
      Handles p r (s.modify id f).1
  | countCalls {s : Registry} (h : Handles p r s) (id : Nat) (f : Nat → Nat)
      (hp : ∀ name, s.nameOf? id = some name → p name) : Handles p r (s.countCalls id f)

namespace Handles

theorem trans (h : Handles p r s) (h' : Handles p s t) : Handles p r t := by
  induction h' with
  | refl => exact h
  | modify _ id f hf hp ih => exact .modify ih id f hf hp
  | countCalls _ id f hp ih => exact .countCalls ih id f hp

/-- Handling keeps a registry well-formed. -/
theorem wellFormed (h : Handles p r s) (hr : r.WellFormed) : s.WellFormed := by
  induction h with
  | refl => exact hr
  | modify _ id f _ _ ih => exact ih.modify id f
  | countCalls _ id f _ ih => exact ih.countCalls id f

/-- Nothing that is handled gets a name. -/
theorem nameOf? (h : Handles p r s) (hr : r.WellFormed) (hname : s.nameOf? i = some name) :
    r.nameOf? i = some name := by
  induction h with
  | refl => exact hname
  | modify _ id f hf _ ih =>
      rw [nameOf?_modify hf] at hname
      exact ih hname
  | countCalls h id f _ ih => exact ih ((h.wellFormed hr).nameOf?_of_countCalls hname)

/-- Handling keeps the settings of every breaker. -/
theorem configOf? (h : Handles p r s) (hr : r.WellFormed) (key : String) :
    s.configOf? key = r.configOf? key := by
  induction h with
  | refl => rfl
  | modify h id f hf _ ih => exact (configOf?_modify hf (h.wellFormed hr) id key).trans ih
  | countCalls _ id f _ ih => exact (configOf?_countCalls _ id f key).trans ih

/-- Handling keeps the settings of the registry. -/
theorem config_eq (h : Handles p r s) : s.config = r.config := by
  induction h with
  | refl => rfl
  | modify _ id f _ _ ih =>
      unfold Registry.modify
      split <;> exact ih
  | countCalls _ _ _ _ ih => exact ih

/-- Handling makes no breaker. -/
theorem nextId_eq (h : Handles p r s) : s.nextId = r.nextId := by
  induction h with
  | refl => rfl
  | modify _ id f _ _ ih =>
      unfold Registry.modify
      split <;> exact ih
  | countCalls _ _ _ _ ih => exact ih


theorem update (h : Handles p r s) (id : Nat) {f : Breaker → Breaker} (hf : ∀ b : Breaker, b.Turns (f b))
    (hp : ∀ name, s.nameOf? id = some name → p name) : Handles p r (s.update id f) :=
  .modify h id (fun b => (f b, ())) hf hp

/-- The calls through a breaker are its own affair. -/
theorem enter (hr : r.WellFormed) (id now : Nat) (hp : ∀ name, r.nameOf? id = some name → p name) :
    Handles p r (r.enter id now).1 := by
  have hmodified : Handles p r (r.modify id (·.enter now)).1 :=
    .modify .refl id _ (fun b => .enter b now) hp
  unfold Registry.enter
  split
  · rename_i s a heq
    rw [heq] at hmodified
    exact .countCalls hmodified id _ fun name hname => hp name (hmodified.nameOf? hr hname)
  · rename_i s err heq
    rw [heq] at hmodified
    exact hmodified
  · rename_i s heq
    rw [heq] at hmodified
    exact hmodified

/-- The end of a call handles the breaker of its ticket. -/
theorem settle (hr : r.WellFormed) (now : Nat) (t : BreakerTicket) (v : Verdict)
    (hp : ∀ name, r.nameOf? t.entry = some name → p name) : Handles p r (r.settle now t v) := by
  have hmodified : Handles p r (r.update t.entry (·.settle now t.admission v)) :=
    .update .refl t.entry (fun b => .settle b now t.admission v) hp
  exact .countCalls hmodified t.entry _ fun name hname => hp name (hmodified.nameOf? hr hname)

/-- So does a call that is given up. -/
theorem abandon (hr : r.WellFormed) (t : BreakerTicket)
    (hp : ∀ name, r.nameOf? t.entry = some name → p name) : Handles p r (r.abandon t) :=
  settle hr 0 t .neutral hp

end Handles

/-- A permission is for the breaker that was asked. -/
theorem entry_of_enter {ticket : BreakerTicket} (h : (r.enter id now).2 = .ok ticket) :
    ticket.entry = id := by
  unfold enter at h
  split at h <;> cases h
  rfl

/-- A call that ends at once handles its breaker. -/
theorem Handles.execute (hr : r.WellFormed) (id now : Nat) (outcome : Except RoutingError α)
    (hp : ∀ name, r.nameOf? id = some name → p name) :
    Handles p r (r.execute id now outcome).1 := by
  have hentered := Handles.enter hr id now hp
  have hticket := @entry_of_enter r id now
  unfold Registry.execute
  generalize r.enter id now = entered at hentered hticket
  obtain ⟨s, answer⟩ := entered
  cases answer with
  | error err => exact hentered
  | ok ticket =>
      obtain rfl := hticket rfl
      exact hentered.trans (settle (hentered.wellFormed hr) now ticket _ fun name hname =>
        hp name (hentered.nameOf? hr hname))

/-- So do many such calls. -/
theorem Handles.execTimes {outcome : Except RoutingError Json} (n : Nat) {counts : Nat × Nat}
    (hr : r.WellFormed) (hp : ∀ name, r.nameOf? id = some name → p name) :
    Handles p r (BreakerSession.execTimes now outcome id n (r, counts)).1 := by
  induction n generalizing r counts with
  | zero => exact .refl
  | succ n ih =>
      obtain ⟨succeeded, rejected⟩ := counts
      have hone := Handles.execute hr id now outcome hp
      unfold BreakerSession.execTimes
      generalize r.execute id now outcome = executed at hone
      obtain ⟨s, result, made⟩ := executed
      have hrest : ∀ counts, Handles p r (BreakerSession.execTimes now outcome id n (s, counts)).1 :=
        fun counts => hone.trans (ih (hone.wellFormed hr) fun name hname =>
          hp name (hone.nameOf? hr hname))
      rcases result with err | value
      · cases err <;> exact hrest _
      · exact hrest _

/-- Changes a number of breakers one after the other, and collects what they tell. -/
def modifyEach (f : Breaker → Breaker × α) : List Nat → Registry → Registry × List α
  | [], r => (r, [])
  | id :: rest, r =>
    let changed := r.modify id f
    let others := modifyEach f rest changed.1
    (others.1, changed.2.toList ++ others.2)

/-- To change breakers one after the other is to change each. -/
theorem foldl_update (f : Breaker → Breaker) (ids : List Nat) (r : Registry) :
    ids.foldl (fun r id => r.update id f) r = (modifyEach (fun b => (f b, ())) ids r).1 := by
  induction ids generalizing r with
  | nil => rfl
  | cons id rest ih => exact ih (r.update id f)

/-- What is collected one breaker after the other is collected in turn. -/
theorem foldl_collect {f : Breaker → Breaker × α}
    {collect : Registry × List α → Nat → Registry × List α}
    (hcollect : ∀ (r : Registry) (acc : List α) (id : Nat),
      collect (r, acc) id = ((r.modify id f).1, acc ++ (r.modify id f).2.toList))
    (ids : List Nat) (r : Registry) (acc : List α) :
    ids.foldl collect (r, acc) = ((modifyEach f ids r).1, acc ++ (modifyEach f ids r).2) := by
  induction ids generalizing r acc with
  | nil => simp [modifyEach]
  | cons id rest ih => simp [hcollect, modifyEach, ih]

/-- The reports of all breakers are collected one after the other. -/
theorem reports_eq (r : Registry) (now : Nat) :
    r.reports now = modifyEach (·.report now) r.registeredIds r := by
  refine (foldl_collect (f := (·.report now)) (fun r acc id => ?_) r.registeredIds r []).trans rfl
  dsimp only
  rcases r.modify id (·.report now) with ⟨s, _ | report⟩
  · exact congrArg (s, ·) acc.append_nil.symm
  · rfl

theorem Handles.modifyEach {f : Breaker → Breaker × α} (hf : ∀ b : Breaker, b.Turns (f b).1)
    (hp : ∀ name, p name) (ids : List Nat) (r : Registry) :
    Handles p r (r.modifyEach f ids).1 := by
  induction ids generalizing r with
  | nil => exact .refl
  | cons id rest ih => exact (Handles.modify .refl id f hf fun name _ => hp name).trans (ih _)

/-- A timer that rings handles the breaker of its key. -/
theorem Handles.ring (hr : r.WellFormed) (now : Nat) (nth : Nat) (timer : ResetTimer) (hp : p key) :
    Handles p r (r.ring now key nth timer) := by
  unfold Registry.ring
  split
  · exact .refl
  · rename_i e he
    have hmem : e ∈ r.ofKey key := List.mem_of_getElem? he
    obtain ⟨hentry, hname⟩ := List.mem_filter.mp hmem
    refine .update .refl e.id (fun b => ?_) fun name hfound => ?_
    · split
      · exact .fireTimer b timer.generation
      · exact .refl b
    · rw [hr.nameOf?_eq hentry, beq_iff_eq.mp hname] at hfound
      exact Option.some.inj hfound ▸ hp

end Registry

namespace BreakerSession

open Registry (Handles)

variable {s t : BreakerSession} {key : String}

/-- The registry of a session once the breaker that an operation needs has been made. -/
def prepared (s : BreakerSession) (op : BreakerStep) : Registry :=
  match op.makes? with
  | some (key, config) => (s.registry.getOrCreate key config).1
  | none => s.registry

theorem prepared_wellFormed (h : s.registry.WellFormed) (op : BreakerStep) :
    (s.prepared op).WellFormed := by
  unfold prepared
  split
  · exact h.getOrCreate _ _
  · exact h

/-- To ask a breaker is to handle it. -/
theorem ask_handles {α : Type} {p : String → Prop} (h : s.registry.WellFormed)
    {f : Breaker → Breaker × α} (hf : ∀ b : Breaker, b.Turns (f b).1) (reply : α → BreakerReply)
    (hp : p key) : Handles p s.registry (s.ask key f reply).1.registry := by
  unfold ask
  cases he : s.registry.find? key with
  | none => exact .refl
  | some e =>
      have hmodified : Handles p s.registry (s.registry.modify e.id f).1 := by
        refine .modify .refl e.id f hf fun name hname => ?_
        rw [h.nameOf?_of_leads ⟨e, he, rfl⟩] at hname
        exact Option.some.inj hname ▸ hp
      dsimp only
      split
      all_goals
        rename_i heq
        rw [heq] at hmodified
        exact hmodified

/-- **Operations.**  Once the breaker it needs has been made, an operation handles breakers of the
keys that it concerns.  (To forget all keys and to stop all timers is more than that.) -/
theorem step_handles (h : s.registry.WellFormed) (op : BreakerStep) (hclear : op ≠ .clear)
    (hstop : op ≠ .disableTimers) :
    Handles (fun key => s.concerns key (.step op) = true) (s.prepared op)
      (s.step op).1.registry := by
  have hmade : ∀ (key : String) (config : Option BreakerConfig) (name : String),
      (s.registry.getOrCreate key config).1.nameOf? (s.registry.getOrCreate key config).2 =
        some name → (key == name) = true := by
    intro key config name hname
    rw [(h.getOrCreate key config).nameOf?_of_leads (s.registry.getOrCreate_leads key config)]
      at hname
    exact beq_iff_eq.mpr (Option.some.inj hname)
  have hwell : ∀ key, (s.registry.getOrCreate key none).1.WellFormed :=
    fun key => h.getOrCreate key none
  have hread : ∀ (b : Breaker), b.Turns (b.read s.now).1 := fun b => .refresh b s.now
  cases op with
  | create key config => exact .refl
  | lookup key => exact .refl
  | exec key outcome => exact .execute (hwell key) _ s.now outcome (hmade key none)
  | execMany key times outcome =>
      exact .execTimes times (hwell key) (hmade key none)
  | start key label =>
      have hentered := Handles.enter (hwell key) _ s.now (hmade key none)
      simp only [step]
      split
      all_goals
        rename_i heq
        rw [heq] at hentered
        exact hentered
  | finish label outcome =>
      simp only [step]
      cases ht : s.calls.lookup label with
      | none => exact .refl
      | some t =>
          exact .settle h s.now t _ fun name hname => by simp [concerns, keyOf?, ht, hname]
  | abandon label =>
      simp only [step]
      cases ht : s.calls.lookup label with
      | none => exact .refl
      | some t => exact .abandon h t fun name hname => by simp [concerns, keyOf?, ht, hname]
  | state key => exact ask_handles h hread .state (beq_self_eq_true key)
  | failureCount key => exact ask_handles h (fun b => .quiet rfl) .count (beq_self_eq_true key)
  | available key => exact ask_handles h hread _ (beq_self_eq_true key)
  | report key =>
      exact ask_handles h (fun b => (Breaker.Turns.refresh b s.now).trans (.quiet rfl)) .report
        (beq_self_eq_true key)
  | trip key => exact .update .refl _ (fun b => .toOpen b s.now) (hmade key none)
  | reset key => exact .update .refl _ (fun b => .reset b) (hmade key none)
  | resetAll =>
      simp only [step, Registry.resetAll, Registry.foldl_update]
      exact .modifyEach (fun b => .reset b) (fun _ => rfl) _ _
  | clear => exact absurd rfl hclear
  | size => exact .refl
  | keys => exact .refl
  | reports =>
      simp only [step, Registry.reports_eq]
      exact .modifyEach (fun b => (Breaker.Turns.refresh b s.now).trans (.quiet rfl)) (fun _ => rfl)
        _ _
  | advance ms =>
      simp only [step, Registry.fireDue, Registry.foldl_update]
      exact .modifyEach (fun b => .fireDue b _) (fun _ => rfl) _ _
  | disableTimers => exact absurd rfl hstop
  | samples => exact .refl

theorem prepared_config (s : BreakerSession) (op : BreakerStep) :
    (s.prepared op).config = s.registry.config := by
  unfold prepared
  split
  · unfold Registry.getOrCreate
    split <;> rfl
  · rfl

/-- The breaker that an operation makes settles the configuration under its key. -/
theorem prepared_configOf? (s : BreakerSession) {op : BreakerStep} (hclear : op ≠ .clear)
    (key : String) :
    (s.prepared op).configOf? key =
      settleConfig s.registry.config key (s.registry.configOf? key) (.step op) := by
  have hsettle : settleConfig s.registry.config key (s.registry.configOf? key) (.step op) =
      match op.makes? with
      | some (k, brought) =>
        if k = key then (s.registry.configOf? key).or (some (brought.getD s.registry.config))
        else s.registry.configOf? key
      | none => s.registry.configOf? key := by
    cases op <;> first | rfl | exact absurd rfl hclear
  rw [hsettle]
  unfold prepared
  cases op.makes? with
  | none => rfl
  | some made => exact Registry.configOf?_getOrCreate s.registry made.1 made.2 key

/-- No breaker is left when all are cleared. -/
theorem clear_configOf? (r : Registry) (key : String) : r.clear.configOf? key = none := by
  have hnone : r.clear.find? key = none := by
    refine List.find?_eq_none.mpr fun e he => ?_
    obtain ⟨x, -, rfl⟩ := List.mem_map.mp he
    simp
  rw [Registry.configOf?, hnone]
  rfl

theorem disableTimers_configOf? (r : Registry) (key : String) :
    r.disableTimers.configOf? key = r.configOf? key :=
  Registry.configOf?_of_map (g := fun e => { e with breaker := e.breaker.disableTimers }) rfl
    (fun _ _ => rfl) key

/-- What a session keeps through an event. -/
structure Settles (s t : BreakerSession) (e : Event) : Prop where
  wellFormed : t.registry.WellFormed
  config : t.registry.config = s.registry.config
  configOf? : ∀ key, t.registry.configOf? key =
    settleConfig s.registry.config key (s.registry.configOf? key) e

/-- What is handled leaves the settings alone. -/
theorem Settles.of_handles {p : String → Prop} (h : s.registry.WellFormed) {e : Event}
    (he : ∀ key, settleConfig s.registry.config key (s.registry.configOf? key) e =
      s.registry.configOf? key)
    (ht : Handles p s.registry t.registry) : Settles s t e :=
  ⟨ht.wellFormed h, ht.config_eq, fun key => (ht.configOf? h key).trans (he key).symm⟩

/-- **Step theorem.**  The configuration under a key is settled when the key is used for the first
time, and stays until all keys are forgotten. -/
theorem happen_settles (h : s.registry.WellFormed) (e : Event) : Settles s (s.happen e).1 e := by
  cases e with
  | pass ms => exact .of_handles (p := fun _ => True) h (fun _ => rfl) .refl
  | ring key nth timer =>
      exact .of_handles h (fun _ => rfl) (.ring (p := (· = key)) h s.now nth timer rfl)
  | step op =>
      by_cases hclear : op = .clear
      · subst hclear
        exact ⟨h.clear, rfl, clear_configOf? s.registry⟩
      by_cases hstop : op = .disableTimers
      · subst hstop
        exact ⟨h.of_map (g := fun e => { e with breaker := e.breaker.disableTimers })
          (fun _ => rfl) rfl rfl, rfl, disableTimers_configOf? s.registry⟩
      · let u : BreakerSession := { s with finished := [] }
        have hu : u.registry.WellFormed := h
        have hhandles := step_handles hu op hclear hstop
        have hprepared := prepared_wellFormed hu op
        exact ⟨hhandles.wellFormed hprepared, hhandles.config_eq.trans (prepared_config u op),
          fun key => (hhandles.configOf? hprepared key).trans (prepared_configOf? u hclear key)⟩

/-- The configuration under a key is the one that it was first used with. -/
theorem run_config (h : s.registry.WellFormed) (key : String) (events : List Event) :
    (s.run events).registry.WellFormed ∧ (s.run events).registry.configOf? key =
      events.foldl (settleConfig s.registry.config key) (s.registry.configOf? key) := by
  induction events generalizing s with
  | nil => exact ⟨h, rfl⟩
  | cons e rest ih =>
      have hstep := happen_settles h e
      obtain ⟨hwell, hconfig⟩ := ih hstep.wellFormed
      refine ⟨hwell, ?_⟩
      rw [hstep.config, hstep.configOf? key] at hconfig
      exact hconfig

end BreakerSession

end InferenceRouting
