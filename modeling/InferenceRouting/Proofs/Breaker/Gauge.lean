import InferenceRouting.Proofs.Breaker.Phases

/-!
# The gauge of a breaker's state

The gauge under a key outlives its breakers, and the breakers that the key has led to share it, also
those that have been forgotten and still have calls under way.  So it shows the state that the
breaker which turned last has turned to (`BreakerSession.run_shows_last_turn`).  While keys are
never forgotten, that is the breaker of the key.
-/

namespace InferenceRouting

namespace BreakerSession

variable {s : BreakerSession} {key : String}

/-- The registry after an event, before it drops the breakers that it needs no longer. -/
def undropped (s : BreakerSession) : Event → Registry
  | .step (.finish label outcome) =>
    match s.calls.lookup label with
    | some t => s.registry.update t.entry (·.settle s.now t.admission (.ofResult outcome))
    | none => s.registry
  | .step (.abandon label) =>
    match s.calls.lookup label with
    | some t => s.registry.update t.entry (·.abandon t.admission)
    | none => s.registry
  | .step .clear => s.registry
  | e => (s.happen e).1.registry

/-- The breakers of a key that turn in an event, with the states they turn to. -/
def turns (key : String) (s : BreakerSession) (e : Event) : List (Nat × CircuitState) :=
  ((s.undropped e).ofKey key).filterMap fun x =>
    if x.breaker.phase = s.registry.phaseOf x.id then none else some (x.id, x.breaker.state)

/-- The breaker of a key that has turned last, with the state it has turned to. -/
def noteTurn (key : String) (s : BreakerSession) (last : Option (Nat × CircuitState)) (e : Event) :
    Option (Nat × CircuitState) :=
  (turns key s e).getLast?.or last

/-- The breaker of a key that has turned last in a run. -/
def lastTurn (key : String) (s : BreakerSession) (last : Option (Nat × CircuitState)) :
    List Event → Option (Nat × CircuitState)
  | [] => last
  | e :: rest => lastTurn key (s.happen e).1 (noteTurn key s last e) rest

open Registry (Tells)

/-- A question to a breaker publishes what it comes to at most. -/
theorem ask_tells {α : Type} (s : BreakerSession) {f : Breaker → Breaker × α}
    (hf : ∀ b : Breaker, b.Tracks (f b).1) (k : String) (reply : α → BreakerReply) :
    ∃ P, s.registry.Tells key P (s.ask k f reply).1.registry := by
  unfold ask
  cases he : s.registry.find? k with
  | none => exact ⟨fun _ _ => True, .refl key _ s.registry⟩
  | some e =>
      have hmodified : s.registry.Tells key (fun i _ => i = e.id) (s.registry.modify e.id f).1 :=
        .modify hf s.registry e.id fun _ _ _ _ => rfl
      refine ⟨fun i _ => i = e.id, ?_⟩
      dsimp only
      split
      all_goals
        rename_i heq
        rw [heq] at hmodified
        exact hmodified

/-- **Step theorem.**  In every event the gauge follows the breakers of its name. -/
theorem happen_tells (h : s.registry.WellFormed) (key : String) (e : Event) :
    ∃ P, s.registry.Tells key P (s.undropped e) := by
  have hrefl : ∃ P, s.registry.Tells key P s.registry := ⟨fun _ _ => True, .refl key _ s.registry⟩
  have hmade : ∀ (P : Nat → CircuitState → Prop) (k : String) (config : Option BreakerConfig),
      s.registry.Tells key P (s.registry.getOrCreate k config).1 :=
    fun _ k config => .getOrCreate h k config
  have hwell : ∀ k, (s.registry.getOrCreate k none).1.WellFormed := fun k => h.getOrCreate k none
  have hleads := fun k => s.registry.getOrCreate_leads k none
  cases e with
  | pass ms => exact hrefl
  | ring k nth timer =>
      obtain ⟨id, hring⟩ : ∃ id, s.registry.Tells key (fun i _ => i = id)
          (s.registry.ring s.now k nth timer) := Tells.ring s.registry s.now k nth timer
      exact ⟨_, hring⟩
  | step op =>
      cases op with
      | create k config => exact ⟨fun _ _ => True, hmade _ k config⟩
      | exec k outcome =>
          exact ⟨_, (hmade _ k none).trans_alone
            ((hwell k).execute (hleads k) s.now outcome).2.2⟩
      | execMany k times outcome =>
          exact ⟨_, (hmade _ k none).trans_alone
            ((hwell k).execTimes (hleads k) s.now outcome times)⟩
      | start k label =>
          have hentered := (hmade _ k none).trans_alone
            (.enter (hwell k) (s.registry.getOrCreate k none).2 s.now)
          refine ⟨fun i _ => i = (s.registry.getOrCreate k none).2, ?_⟩
          simp only [undropped, happen, step]
          split
          all_goals
            rename_i heq
            rw [heq] at hentered
            exact hentered
      | finish label outcome =>
          simp only [undropped]
          cases s.calls.lookup label with
          | none => exact hrefl
          | some t => exact ⟨_, .update (fun b => .settle b s.now t.admission _) s.registry t.entry⟩
      | abandon label =>
          simp only [undropped]
          cases s.calls.lookup label with
          | none => exact hrefl
          | some t => exact ⟨_, .update (fun b => .releaseProbe b t.admission) s.registry t.entry⟩
      | state k | available k =>
          exact ask_tells { s with finished := [] } (fun b => .refresh b s.now) k _
      | failureCount k =>
          exact ask_tells { s with finished := [] } (fun b => .quiet (.quiet rfl) rfl) k _
      | report k =>
          exact ask_tells { s with finished := [] }
            (fun b => (Breaker.Tracks.refresh b s.now).trans (.quiet (.quiet rfl) rfl)) k _
      | trip k => exact ⟨_, (hmade _ k none).trans_alone (.update (fun b => .toOpen b s.now) _ _)⟩
      | reset k => exact ⟨_, (hmade _ k none).trans_alone (.update (fun b => .reset b) _ _)⟩
      | resetAll =>
          simp only [undropped, happen, step, Registry.resetAll, Registry.foldl_update]
          exact ⟨_, .modifyEach (c := .closed) (fun b => .reset b) (fun _ _ => rfl) _ _⟩
      | reports =>
          simp only [undropped, happen, step, Registry.reports_eq]
          exact ⟨_, .modifyEach
            (fun b => (Breaker.Tracks.refresh b s.now).trans (.quiet (.quiet rfl) rfl))
            (fun b hne => Breaker.refresh_turns hne) _ _⟩
      | advance ms =>
          simp only [undropped, happen, step, Registry.fireDue, Registry.foldl_update]
          exact ⟨_, .modifyEach (fun b => .fireDue b _) (fun b hne => Breaker.fireDue_turns hne) _ _⟩
      | disableTimers =>
          exact ⟨fun _ _ => True,
            .of_map (g := fun e => { e with breaker := e.breaker.disableTimers }) _ (fun _ => rfl)
              rfl rfl⟩
      | lookup | clear | size | keys | samples => exact hrefl

/-- The registry after an event is the one before it drops breakers, without some of its entries and
up to the counting of calls. -/
structure Drops (r t : Registry) : Prop where
  entries : ∀ y ∈ t.entries, ∃ x ∈ r.entries, x.id = y.id ∧ x.breaker = y.breaker
  meters : t.meters = r.meters
  nextId : t.nextId = r.nextId

/-- Counting calls only drops breakers. -/
theorem Drops.countCalls (r : Registry) (id : Nat) (f : Nat → Nat) : Drops r (r.countCalls id f) := by
  refine ⟨fun y hy => ?_, rfl, rfl⟩
  obtain ⟨x, hx, rfl⟩ := List.mem_map.mp (List.mem_filter.mp hy).1
  exact ⟨x, hx, by split <;> exact ⟨rfl, rfl⟩⟩

/-- An event leaves the undropped registry, less the breakers that are needed no longer. -/
theorem happen_drops (s : BreakerSession) (e : Event) :
    Drops (s.undropped e) (s.happen e).1.registry := by
  have hsame : ∀ r : Registry, Drops r r := fun r => ⟨fun y hy => ⟨y, hy, rfl, rfl⟩, rfl, rfl⟩
  cases e with
  | pass | ring => exact hsame _
  | step op =>
      cases op with
      | finish label outcome =>
          simp only [undropped, happen, step]
          cases s.calls.lookup label with
          | none => exact hsame _
          | some t =>
              exact Drops.countCalls
                (s.registry.update t.entry (·.settle s.now t.admission (.ofResult outcome)))
                t.entry (· - 1)
      | abandon label =>
          simp only [undropped, happen, step]
          cases s.calls.lookup label with
          | none => exact hsame _
          | some t =>
              exact Drops.countCalls (s.registry.update t.entry (·.abandon t.admission))
                t.entry (· - 1)
      | clear =>
          refine ⟨fun y hy => ?_, rfl, rfl⟩
          obtain ⟨x, hx, rfl⟩ := List.mem_map.mp hy
          exact ⟨x, (List.mem_filter.mp hx).1, rfl, rfl⟩
      | _ => exact hsame _

/-- A breaker that is still there is where it was. -/
theorem Drops.of_nameOf? {r t : Registry} (h : Drops r t) (hr : r.WellFormed) {i : Nat}
    {name : String} (hname : t.nameOf? i = some name) :
    r.nameOf? i = some name ∧ t.phaseOf i = r.phaseOf i := by
  obtain ⟨y, hy, hmem, rfl, rfl⟩ := Registry.exists_of_nameOf? hname
  obtain ⟨x, hx, hid, hbreaker⟩ := h.entries y hmem
  have hfound : r.entry? y.id = some x := hid ▸ hr.entry?_eq hx
  refine ⟨by rw [Registry.nameOf?, hfound, Option.map_some, hbreaker], ?_⟩
  rw [Registry.phaseOf, Registry.phaseOf, hy, hfound, Option.map_some, Option.map_some, hbreaker]

theorem undropped_wellFormed (h : s.registry.WellFormed) (e : Event) :
    (s.undropped e).WellFormed := by
  have hhappen := (happen_settles h e).wellFormed
  cases e with
  | pass | ring => exact hhappen
  | step op =>
      cases op with
      | finish label | abandon label =>
          simp only [undropped]
          split
          · exact h.modify _ _
          · exact h
      | clear => exact h
      | _ => exact hhappen

/-- What turns in an event. -/
theorem mem_turns (h : s.registry.WellFormed) (key : String) (e : Event) (i : Nat)
    (c : CircuitState) :
    (i, c) ∈ turns key s e ↔ (s.undropped e).nameOf? i = some key ∧
      (s.undropped e).phaseOf i ≠ s.registry.phaseOf i ∧ ((s.undropped e).phaseOf i).1 = c := by
  have hwell := undropped_wellFormed h e
  simp only [turns, List.mem_filterMap, Registry.ofKey, List.mem_filter, beq_iff_eq]
  constructor
  · rintro ⟨x, ⟨hmem, hkey⟩, hx⟩
    have hphase : (s.undropped e).phaseOf x.id = x.breaker.phase := by
      rw [Registry.phaseOf, hwell.entry?_eq hmem]
      rfl
    split at hx
    · cases hx
    · rename_i hne
      obtain ⟨rfl, rfl⟩ := Prod.mk.inj (Option.some.inj hx)
      rw [hwell.nameOf?_eq hmem, hphase]
      exact ⟨congrArg some hkey, hne, rfl⟩
  · rintro ⟨hname, hne, rfl⟩
    obtain ⟨x, hx, hmem, rfl, hkey⟩ := Registry.exists_of_nameOf? hname
    have hphase : (s.undropped e).phaseOf x.id = x.breaker.phase := by
      rw [Registry.phaseOf, hx]
      rfl
    rw [hphase] at hne ⊢
    exact ⟨x, ⟨hmem, hkey⟩, by rw [if_neg hne]; rfl⟩

/-- The gauge under a key shows what the breaker that has turned last has turned to, which is where
that breaker still is. -/
structure Shows (key : String) (s : BreakerSession) (last : Option (Nat × CircuitState)) : Prop where
  wellFormed : s.registry.WellFormed
  shown : s.registry.shownUnder key = last.map Prod.snd
  known : ∀ i c, last = some (i, c) → i < s.registry.nextId
  stays : ∀ i c, last = some (i, c) → s.registry.nameOf? i = some key →
    (s.registry.phaseOf i).1 = c

/-- **Step theorem.**  The gauge shows the last turn after an event, if it did so before. -/
theorem Shows.step {last : Option (Nat × CircuitState)} (h : Shows key s last) (e : Event) :
    Shows key (s.happen e).1 (noteTurn key s last e) := by
  obtain ⟨P, htells⟩ := happen_tells h.wellFormed key e
  have hdrops := happen_drops s e
  have hwell := undropped_wellFormed h.wellFormed e
  have hmem := mem_turns h.wellFormed key e
  have hshown : (s.happen e).1.registry.shownUnder key = (s.undropped e).shownUnder key := by
    rw [Registry.shownUnder, Registry.shownUnder, Registry.metersOf, Registry.metersOf,
      hdrops.meters]
  have hwell' := (happen_settles h.wellFormed e).wellFormed
  unfold noteTurn
  cases hlast : (turns key s e).getLast? with
  | none =>
      have hnil := List.getLast?_eq_none_iff.mp hlast
      have hquiet : ∀ i, (s.undropped e).nameOf? i = some key →
          (s.undropped e).phaseOf i = s.registry.phaseOf i := by
        intro i hi
        by_contra hne
        have hturned := (hmem i _).mpr ⟨hi, hne, rfl⟩
        rw [hnil] at hturned
        cases hturned
      rw [Option.none_or]
      refine ⟨hwell', ?_, fun i c hi => ?_, fun i c hi hname => ?_⟩
      · rw [hshown, htells.stayed hquiet, h.shown]
      · rw [hdrops.nextId]
        exact Nat.lt_of_lt_of_le (h.known i c hi) htells.nextId
      · obtain ⟨hname', hphase⟩ := hdrops.of_nameOf? hwell hname
        have hbefore : s.registry.nameOf? i = some key :=
          (htells.fresh i key hname').resolve_right (Nat.not_le.mpr (h.known i c hi))
        rw [hphase, hquiet i hname']
        exact h.stays i c hi hbefore
  | some turned =>
      obtain ⟨i, c⟩ := turned
      obtain ⟨hname, hne, hstate⟩ := (hmem i c).mp (List.mem_of_getLast? hlast)
      rw [Option.some_or]
      refine ⟨hwell', ?_, fun j d hj => ?_, fun j d hj hname' => ?_⟩
      · rw [hshown, (htells.turned i hname hne).2, hstate]
        rfl
      · obtain ⟨rfl, rfl⟩ := Prod.mk.inj (Option.some.inj hj)
        rw [hdrops.nextId]
        exact hwell.lt_nextId hname
      · obtain ⟨rfl, rfl⟩ := Prod.mk.inj (Option.some.inj hj)
        rw [(hdrops.of_nameOf? hwell hname').2, hstate]

/-- **Run theorem.**  So it does after every run. -/
theorem Shows.run {last : Option (Nat × CircuitState)} (h : Shows key s last)
    (events : List Event) : Shows key (s.run events) (lastTurn key s last events) := by
  induction events generalizing s last with
  | nil => exact h
  | cons e rest ih => exact ih (h.step e)

/-! ### While no key is forgotten -/

/-- Every breaker has its key, and no two have one name. -/
structure Remembers (r : Registry) : Prop where
  registered : ∀ e ∈ r.entries, e.registered = true
  unique : ∀ i j name, r.nameOf? i = some name → r.nameOf? j = some name → i = j

namespace Remembers

variable {r t : Registry}

/-- Handling breakers forgets none. -/
theorem handles {p : String → Prop} (h : Remembers r) (hr : r.WellFormed)
    (ht : Registry.Handles p r t) : Remembers t := by
  refine ⟨?_, fun i j name hi hj => h.unique i j name (ht.nameOf? hr hi) (ht.nameOf? hr hj)⟩
  induction ht with
  | refl => exact h.registered
  | modify _ id f _ _ ih =>
      unfold Registry.modify
      split
      · exact ih
      · intro e he
        obtain ⟨x, hx, rfl⟩ := List.mem_map.mp he
        have hregistered := ih x hx
        split <;> exact hregistered
  | countCalls _ id f _ ih =>
      intro e he
      obtain ⟨x, hx, rfl⟩ := List.mem_map.mp (List.mem_filter.mp he).1
      have hregistered := ih x hx
      split <;> exact hregistered

theorem update (h : Remembers r) (hr : r.WellFormed) (id : Nat) {f : Breaker → Breaker}
    (hf : ∀ b : Breaker, b.Turns (f b)) : Remembers (r.update id f) :=
  h.handles hr (.update (p := fun _ => True) .refl id hf fun _ _ => trivial)

/-- A breaker that is made is remembered with the others. -/
theorem getOrCreate (h : Remembers r) (hr : r.WellFormed) (k : String)
    (config : Option BreakerConfig) : Remembers (r.getOrCreate k config).1 := by
  cases hfound : r.find? k with
  | some e =>
      rw [Registry.getOrCreate_of_some hfound]
      exact h
  | none =>
      -- all breakers have their keys, so none has this name
      have hnone : ∀ i, r.nameOf? i ≠ some k := by
        intro i hi
        obtain ⟨x, -, hx, -, hkey⟩ := Registry.exists_of_nameOf? hi
        have hno := List.find?_eq_none.mp hfound x hx
        simp [h.registered x hx, hkey] at hno
      have hname : ∀ i name, (r.getOrCreate k config).1.nameOf? i = some name →
          r.nameOf? i = some name ∨ (name = k ∧ i = r.nextId) := by
        intro i name hi
        rcases Nat.lt_or_ge i r.nextId with hold | hnew
        · exact .inl ((Registry.nameOf?_getOrCreate hold k config).symm.trans hi)
        · obtain ⟨x, -, hx, rfl, rfl⟩ := Registry.exists_of_nameOf? hi
          rw [Registry.getOrCreate_of_none hfound] at hx
          rcases List.mem_append.mp hx with hx | hx
          · exact absurd (hr.recent x hx) (Nat.not_lt.mpr hnew)
          · obtain rfl := List.mem_singleton.mp hx
            exact .inr ⟨rfl, rfl⟩
      refine ⟨fun e he => ?_, fun i j name hi hj => ?_⟩
      · rw [Registry.getOrCreate_of_none hfound] at he
        rcases List.mem_append.mp he with he | he
        · exact h.registered e he
        · obtain rfl := List.mem_singleton.mp he
          rfl
      · rcases hname i name hi with hold | ⟨hk, hnew⟩
        · rcases hname j name hj with hold' | ⟨hk, -⟩
          · exact h.unique i j name hold hold'
          · exact absurd (hk ▸ hold) (hnone i)
        · rcases hname j name hj with hold | ⟨-, hnew'⟩
          · exact absurd (hk ▸ hold) (hnone j)
          · rw [hnew, hnew']

theorem disableTimers (h : Remembers r) : Remembers r.disableTimers := by
  refine ⟨fun e he => ?_, fun i j name hi hj => ?_⟩
  · obtain ⟨x, hx, rfl⟩ := List.mem_map.mp he
    exact h.registered x hx
  · rw [Registry.nameOf?_disableTimers] at hi hj
    exact h.unique i j name hi hj

/-- **Step theorem.**  Only to clear the registry makes it forget. -/
theorem happen (h : Remembers s.registry) (hs : s.registry.WellFormed) {e : Event}
    (he : e ≠ .step .clear) : Remembers (s.happen e).1.registry := by
  cases e with
  | pass ms => exact h
  | ring k nth timer =>
      exact h.handles hs (.ring (p := (· = k)) hs s.now nth timer rfl)
  | step op =>
      by_cases hstop : op = .disableTimers
      · subst hstop
        exact h.disableTimers
      · let u : BreakerSession := { s with finished := [] }
        have hu : u.registry.WellFormed := hs
        have hprepared : Remembers (u.prepared op) := by
          unfold prepared
          split
          · exact h.getOrCreate hs _ _
          · exact h
        exact hprepared.handles (prepared_wellFormed hu op)
          (step_handles hu op (fun hop => he (congrArg Event.step hop)) hstop)

/-- No breaker is dropped. -/
theorem nameOf?_happen (h : Remembers s.registry) (hs : s.registry.WellFormed) {e : Event}
    (he : e ≠ .step .clear) {i : Nat} {name : String}
    (hname : (s.undropped e).nameOf? i = some name) :
    (s.happen e).1.registry.nameOf? i = some name := by
  have hcount : ∀ (u : Registry) (id : Nat) (f : Nat → Nat), u.WellFormed → Remembers u →
      u.nameOf? i = some name → (u.countCalls id f).nameOf? i = some name := by
    intro u id f hu hremembers hi
    have htells : u.Tells name (fun _ _ => True) (u.countCalls id f) :=
      .countCalls hu fun e he _ => .inl (hremembers.registered e he)
    exact htells.names i name hi
  have hwell := undropped_wellFormed hs e
  cases e with
  | pass | ring => exact hname
  | step op =>
      cases op with
      | clear => exact absurd rfl he
      | finish label outcome =>
          simp only [undropped] at hname hwell
          simp only [BreakerSession.happen, step]
          cases ht : s.calls.lookup label with
          | none =>
              rw [ht] at hname
              exact hname
          | some t =>
              rw [ht] at hname hwell
              exact hcount _ t.entry (· - 1) hwell
                (h.update hs t.entry fun b => .settle b s.now t.admission _) hname
      | abandon label =>
          simp only [undropped] at hname hwell
          simp only [BreakerSession.happen, step]
          cases ht : s.calls.lookup label with
          | none =>
              rw [ht] at hname
              exact hname
          | some t =>
              rw [ht] at hname hwell
              exact hcount _ t.entry (· - 1) hwell
                (h.update hs t.entry fun b => .releaseProbe b t.admission) hname
      | _ => exact hname

/-- Along a run in which no key is forgotten, the breaker that has turned last stays. -/
theorem run (h : Remembers s.registry) {last : Option (Nat × CircuitState)}
    (hshows : Shows key s last) (hkept : ∀ i c, last = some (i, c) → s.registry.nameOf? i = some key)
    {events : List Event} (hclear : Event.step .clear ∉ events) :
    Remembers (s.run events).registry ∧ ∀ i c, lastTurn key s last events = some (i, c) →
      (s.run events).registry.nameOf? i = some key := by
  induction events generalizing s last with
  | nil => exact ⟨h, hkept⟩
  | cons e rest ih =>
      have he : e ≠ .step .clear := fun heq => hclear (heq ▸ List.mem_cons_self)
      refine ih (h.happen hshows.wellFormed he) (hshows.step e) (fun i c hi => ?_)
        fun hrest => hclear (List.mem_cons_of_mem e hrest)
      refine h.nameOf?_happen hshows.wellFormed he ?_
      unfold noteTurn at hi
      cases hlast : (turns key s e).getLast? with
      | none =>
          rw [hlast, Option.none_or] at hi
          obtain ⟨P, htells⟩ := happen_tells hshows.wellFormed key e
          exact htells.names i key (hkept i c hi)
      | some turned =>
          rw [hlast, Option.some_or] at hi
          obtain rfl := Option.some.inj hi
          exact ((mem_turns hshows.wellFormed key e i c).mp (List.mem_of_getLast? hlast)).1

end Remembers

/-- **The gauge of a key.**  After every run the gauge under a key shows the state that the breaker
of this name which turned last turned to, and that is the state of this breaker for as long as it is
there, whether or not the key still leads to it.  If no keys have been forgotten, it is the state of
the breaker of the key. -/
theorem run_shows_last_turn (config : BreakerConfig) (timersEnabled : Bool) (events : List Event)
    (key : String) :
    let s := (opened config timersEnabled).run events
    let last := lastTurn key (opened config timersEnabled) none events
    (s.registry.metersOf key).shown = last.map Prod.snd ∧
      (∀ x ∈ s.registry.ofKey key, ∀ c, last = some (x.id, c) → x.breaker.state = c) ∧
      (Event.step .clear ∉ events → ∀ x, s.registry.find? key = some x →
        ∀ c, (s.registry.metersOf key).shown = some c → x.breaker.state = c) := by
  intro s last
  have hopened : Shows key (opened config timersEnabled) none :=
    ⟨(Registry.Reachable.new config timersEnabled).wellFormed, rfl, fun _ _ h => (by cases h),
      fun _ _ h => (by cases h)⟩
  have hshows : Shows key s last := hopened.run events
  have hstate : ∀ x ∈ s.registry.entries, x.breaker.name = key → ∀ c, last = some (x.id, c) →
      x.breaker.state = c := by
    intro x hx hkey c hlast
    have hphase : s.registry.phaseOf x.id = x.breaker.phase := by
      rw [Registry.phaseOf, hshows.wellFormed.entry?_eq hx]
      rfl
    have hname : s.registry.nameOf? x.id = some key :=
      (hshows.wellFormed.nameOf?_eq hx).trans (congrArg some hkey)
    have hstays := hshows.stays x.id c hlast hname
    rw [hphase] at hstays
    exact hstays
  refine ⟨hshows.shown, fun x hx => ?_, fun hclear x hx c hc => ?_⟩
  · obtain ⟨hmem, hkey⟩ := List.mem_filter.mp hx
    exact hstate x hmem (beq_iff_eq.mp hkey)
  · have hempty : Remembers (opened config timersEnabled).registry :=
      ⟨fun e he => (by cases he), fun i j name hi => (by cases hi)⟩
    obtain ⟨hremembers, hkept⟩ := hempty.run hopened (fun _ _ h => (by cases h)) hclear
    obtain ⟨hmem, -, hkey⟩ := Registry.of_find? hx
    have hlast : last.map Prod.snd = some c := hshows.shown.symm.trans hc
    obtain ⟨⟨i, d⟩, hturn, rfl⟩ := Option.map_eq_some_iff.mp hlast
    have hname : s.registry.nameOf? x.id = some key :=
      (hshows.wellFormed.nameOf?_eq hmem).trans (congrArg some hkey)
    obtain rfl : i = x.id := hremembers.unique i x.id key (hkept i d hturn) hname
    exact hstate x hmem hkey d hturn

/-- A key is forgotten while its circuit is open, and used again. -/
def forgottenOpen : List Event :=
  [.step (.trip "a"), .step .clear, .step (.create "a" none), .step (.state "a")]

/-- The new breaker of a key is closed, and the gauge still shows what a forgotten one left. -/
theorem forgotten_still_shown :
    let s := (opened {} true).run forgottenOpen
    (s.registry.find? "a").map (·.breaker.state) = some .closed ∧
      (s.registry.metersOf "a").shown = some .open := by
  decide

end BreakerSession

end InferenceRouting
