import InferenceRouting.Proofs.Breaker.Isolation

/-!
# What a breaker publishes of its state

A breaker turns when its state or its generation changes (`Breaker.phase`), and then it publishes its
state (`Breaker.Tracks`).  The phases of a breaker are ordered, since a generation is never begun
twice and is at most closed (`BreakerPhase.Later`); so whether a breaker has turned in the course of
many moves is told from where it was and where it is.

`Registry.Tells` says the same of all breakers of a registry that have one name, and the gauge under
this name.
-/

namespace InferenceRouting

/-- The state of a breaker, in its generation. -/
abbrev BreakerPhase := CircuitState × Nat

/-- A phase that a breaker can reach from another. -/
def BreakerPhase.Later (p q : BreakerPhase) : Prop :=
  p.2 ≤ q.2 ∧ (p.2 = q.2 → q.1 = p.1 ∨ q.1 = .closed)

namespace BreakerPhase

variable {p q u : BreakerPhase}

theorem Later.refl (p : BreakerPhase) : p.Later p :=
  ⟨Nat.le_refl _, fun _ => .inl rfl⟩

theorem Later.trans (h : p.Later q) (h' : q.Later u) : p.Later u := by
  obtain ⟨hle, hsame⟩ := h
  obtain ⟨hle', hsame'⟩ := h'
  refine ⟨Nat.le_trans hle hle', fun heq => ?_⟩
  rcases hsame' (by omega) with hstate | hclosed
  · rw [hstate]
    exact hsame (by omega)
  · exact .inr hclosed

/-- A breaker does not come back to a phase that it has left. -/
theorem Later.antisymm (h : p.Later q) (h' : q.Later p) : q = p := by
  have hgeneration : p.2 = q.2 := Nat.le_antisymm h.1 h'.1
  have hstate : q.1 = p.1 := by
    rcases h.2 hgeneration with hstate | hclosed
    · exact hstate
    · rcases h'.2 hgeneration.symm with hstate | hclosed'
      · exact hstate.symm
      · rw [hclosed, hclosed']
  exact Prod.ext hstate hgeneration.symm

end BreakerPhase

namespace Breaker

variable {b c d : Breaker} {a : Admission} {now : Nat}

/-- Where the circuit of a breaker is. -/
def phase (b : Breaker) : BreakerPhase := (b.state, b.generation)

/-- A breaker that moves comes to a later phase. -/
theorem Advances.later (h : b.Advances c) : b.phase.Later c.phase := by
  refine ⟨h.generation, fun hsame => ?_⟩
  have hsame' : c.generation = b.generation := hsame.symm
  cases hstate : c.state with
  | closed => exact .inr hstate
  | «open» => exact .inl (hstate.trans (h.opened hsame' hstate).1.symm)
  | halfOpen => exact .inl (hstate.trans (h.halfOpen hsame' hstate).symm)

/-- A breaker that has come of another by its own moves has published its state if it has turned,
and else none. -/
structure Tracks (b c : Breaker) : Prop where
  turns : b.Turns c
  turned : c.phase ≠ b.phase → c.meters.shown = some c.state
  stayed : c.phase = b.phase → c.meters.shown = b.meters.shown

namespace Tracks

/-- A move that publishes nothing leaves the phase alone. -/
theorem quiet (h : b.Turns c) (hsame : (c.phase, c.meters.shown) = (b.phase, b.meters.shown)) :
    b.Tracks c := by
  obtain ⟨hphase, hshown⟩ := Prod.mk.inj hsame
  exact ⟨h, fun hne => absurd hphase hne, fun _ => hshown⟩

/-- A move that publishes the state changes the phase. -/
theorem published (h : b.Turns c) (hphase : c.phase ≠ b.phase)
    (hshown : c.meters.shown = some c.state) : b.Tracks c :=
  ⟨h, fun _ => hshown, fun heq => absurd heq hphase⟩

/-- So does one that begins a generation. -/
theorem begins (h : b.Turns c) (hnext : c.generation = b.generation + 1)
    (hshown : c.meters.shown = some c.state) : b.Tracks c := by
  refine published h (fun heq => ?_) hshown
  have hsame : c.generation = b.generation := (Prod.mk.inj heq).2
  omega

theorem refl (b : Breaker) : b.Tracks b :=
  quiet (.refl b) rfl

theorem trans (h : b.Tracks c) (h' : c.Tracks d) : b.Tracks d := by
  refine ⟨h.turns.trans h'.turns, fun hne => ?_, fun heq => ?_⟩
  · by_cases hlast : d.phase = c.phase
    · have hfirst : c.phase ≠ b.phase := hlast ▸ hne
      rw [h'.stayed hlast, h.turned hfirst]
      exact congrArg some (Prod.mk.inj hlast).1.symm
    · exact h'.turned hlast
  · have hmiddle : c.phase = b.phase :=
      h.turns.advances.later.antisymm (heq ▸ h'.turns.advances.later)
    exact (h'.stayed (heq.trans hmiddle.symm)).trans (h.stayed hmiddle)

/-- Opening begins a phase, and is published. -/
theorem toOpen (b : Breaker) (now : Nat) : b.Tracks (b.toOpen now) := by
  refine begins (.toOpen b now) ?_ ?_ <;> rw [toOpen_eq]

/-- So is turning half-open. -/
theorem toHalfOpen (h : b.state = .open) : b.Tracks b.toHalfOpen := by
  refine begins (.toHalfOpen h) ?_ ?_ <;> rw [toHalfOpen_eq]

/-- So is closing. -/
theorem toClosed (h : b.state = .halfOpen) : b.Tracks b.toClosed := by
  refine published (.toClosed h) ?_ ?_ <;> rw [toClosed_eq]
  intro heq
  have hstate : CircuitState.closed = b.state := (Prod.mk.inj heq).1
  rw [h] at hstate
  cases hstate

/-- A reset begins a phase and is published whatever the state was. -/
theorem reset (b : Breaker) : b.Tracks b.reset := by
  refine begins (.reset b) ?_ ?_ <;> rw [reset_eq]

/-- A look publishes the move it makes. -/
theorem refresh (b : Breaker) (now : Nat) : b.Tracks (b.refresh now) := by
  by_cases h : b.Overdue now
  · rw [refresh_of_overdue h]
    exact toHalfOpen h.1
  · rw [refresh_of_not_overdue h]
    exact refl b

/-- So does asking for a call. -/
theorem enter (b : Breaker) (now : Nat) : b.Tracks (b.enter now).1 := by
  have hcount : b.Tracks b.countRequest := quiet (.quiet rfl) rfl
  refine (hcount.trans (refresh _ now)).trans ?_
  rw [enter_eq]
  unfold judge
  split
  · exact refl _
  · exact quiet (.quiet rfl) rfl
  · split <;> exact quiet (.quiet rfl) rfl

/-- Giving a place back publishes nothing. -/
theorem releaseProbe (b : Breaker) (a : Admission) : b.Tracks (b.releaseProbe a) := by
  obtain ⟨n, hrelease⟩ := releaseProbe_eq b a
  rw [hrelease]
  exact quiet (.quiet rfl) rfl

/-- A success publishes that it closes the circuit. -/
theorem recordSuccess (b : Breaker) (now : Nat) (a : Admission) :
    b.Tracks (b.recordSuccess now a) := by
  have hnote : b.Tracks (b.noteSuccess now) := quiet (.quiet rfl) rfl
  refine hnote.trans ?_
  rw [recordSuccess_eq]
  generalize b.noteSuccess now = c
  cases hstate : c.state with
  | closed =>
      rw [credit_of_closed hstate]
      exact quiet (.quiet rfl) rfl
  | «open» =>
      rw [credit_of_open hstate]
      exact refl c
  | halfOpen =>
      by_cases hprobe : a.probe = some c.generation
      · have hcount : c.Tracks c.countSuccess := quiet (.quiet rfl) rfl
        rw [credit_of_probe hstate hprobe]
        split
        · exact hcount.trans (toClosed hstate)
        · exact hcount
      · rw [credit_of_other hstate hprobe]
        exact refl c

/-- A failure publishes that it opens it. -/
theorem recordFailure (b : Breaker) (now : Nat) : b.Tracks (b.recordFailure now) := by
  have hcount : b.Tracks (b.countFailure now) := quiet (.quiet rfl) rfl
  refine hcount.trans ?_
  rw [recordFailure_eq]
  unfold react
  split
  · split
    · exact toOpen _ now
    · exact refl _
  · exact toOpen _ now
  · exact refl _

theorem settle (b : Breaker) (now : Nat) (a : Admission) (v : Verdict) :
    b.Tracks (b.settle now a v) := by
  have hrelease := releaseProbe b a
  cases v with
  | success => exact hrelease.trans (recordSuccess _ now a)
  | failure => exact hrelease.trans (recordFailure _ now)
  | neutral => exact hrelease

/-- A timer publishes that it ends a cool-down. -/
theorem fireTimer (b : Breaker) (generation : Nat) : b.Tracks (b.fireTimer generation) := by
  have hturns := Turns.fireTimer b generation
  unfold Breaker.fireTimer at hturns ⊢
  dsimp only at hturns ⊢
  split
  · rename_i h
    rw [if_pos h] at hturns
    refine begins hturns ?_ ?_ <;> rw [toHalfOpen_eq]
  · rename_i h
    rw [if_neg h] at hturns
    exact quiet hturns rfl

theorem fireDue (b : Breaker) (now : Nat) : b.Tracks (b.fireDue now) := by
  have hfold (due : List ResetTimer) (b : Breaker) :
      b.Tracks (due.foldl (fun b t => b.fireTimer t.generation) b) := by
    induction due generalizing b with
    | nil => exact refl b
    | cons t rest ih => exact (fireTimer b t.generation).trans (ih _)
  exact hfold _ b

end Tracks

/-- A look can only end the cool-down. -/
theorem refresh_turns (h : (b.refresh now).phase ≠ b.phase) : (b.refresh now).state = .halfOpen := by
  by_cases hover : b.Overdue now
  · rw [refresh_of_overdue hover, toHalfOpen_eq]
  · rw [refresh_of_not_overdue hover] at h
    exact absurd rfl h

/-- So can a timer. -/
theorem fireDue_turns (h : (b.fireDue now).phase ≠ b.phase) : (b.fireDue now).state = .halfOpen := by
  have hfold (due : List ResetTimer) (c : Breaker) (hc : c.phase = b.phase ∨ c.state = .halfOpen) :
      (due.foldl (fun b t => b.fireTimer t.generation) c).phase = b.phase ∨
        (due.foldl (fun b t => b.fireTimer t.generation) c).state = .halfOpen := by
    induction due generalizing c with
    | nil => exact hc
    | cons t rest ih =>
        refine ih _ ?_
        unfold fireTimer
        dsimp only
        split
        · rw [toHalfOpen_eq]
          exact .inr rfl
        · exact hc
  exact (hfold _ b (.inl rfl)).resolve_left h

end Breaker

namespace Registry

variable {r s t : Registry} {key : String} {id i now : Nat} {e : BreakerEntry} {α : Type}

/-- The phase of the breaker with a number; that of a new breaker while there is none. -/
def phaseOf (r : Registry) (id : Nat) : BreakerPhase :=
  ((r.entry? id).map (·.breaker.phase)).getD (.closed, 0)

/-- The state that the gauge under a name shows, once it has been set. -/
def shownUnder (r : Registry) (key : String) : Option CircuitState :=
  (r.metersOf key).shown

/-- Entries that keep their numbers are found as before. -/
theorem entry?_map {g : BreakerEntry → BreakerEntry} (hg : ∀ e, (g e).id = e.id)
    (hs : s.entries = r.entries.map g) (i : Nat) : s.entry? i = (r.entry? i).map g := by
  unfold entry?
  rw [hs, List.find?_map]
  congr 2
  funext e
  simp only [Function.comp_apply, hg]

/-- What is published under a name is what was published last. -/
theorem metersOf_setMeters (r : Registry) (name key : String) (m : BreakerMeters) :
    (r.setMeters name m).metersOf key = if key = name then m else r.metersOf key := by
  unfold metersOf setMeters
  by_cases hkey : key = name
  · simp [hkey]
  · rw [if_neg hkey, List.lookup_cons, beq_false_of_ne hkey, Keyed.lookup_filter_of_ne hkey]

/-- How a registry comes of another while breakers turn: no breaker goes, those that come are new,
none comes back to a phase that it has left, and the gauge under a key follows its breakers.  The
ones that have turned satisfy `P`, with the states they have turned to. -/
structure Tells (key : String) (P : Nat → CircuitState → Prop) (r s : Registry) : Prop where
  names : ∀ i name, r.nameOf? i = some name → s.nameOf? i = some name
  fresh : ∀ i name, s.nameOf? i = some name → r.nameOf? i = some name ∨ r.nextId ≤ i
  nextId : r.nextId ≤ s.nextId
  later : ∀ i, (r.phaseOf i).Later (s.phaseOf i)
  turned : ∀ i, s.nameOf? i = some key → s.phaseOf i ≠ r.phaseOf i →
    P i (s.phaseOf i).1 ∧ s.shownUnder key = some (s.phaseOf i).1
  stayed : (∀ i, s.nameOf? i = some key → s.phaseOf i = r.phaseOf i) →
    s.shownUnder key = r.shownUnder key

/-- A breaker that is not there has the phase of a new one. -/
theorem phaseOf_of_none (h : r.nameOf? id = none) : r.phaseOf id = (.closed, 0) := by
  have hnone : r.entry? id = none := by simpa [nameOf?] using h
  rw [phaseOf, hnone]
  rfl

namespace Tells

variable {P : Nat → CircuitState → Prop}

theorem refl (key : String) (P : Nat → CircuitState → Prop) (r : Registry) : r.Tells key P r :=
  ⟨fun _ _ h => h, fun _ _ h => .inl h, Nat.le_refl _, fun _ => .refl _,
    fun _ _ hne => absurd rfl hne, fun _ => rfl⟩

/-- One after the other.  If different breakers turn, they turn to the same state. -/
theorem trans (hP : ∀ i c j d, P i c → P j d → i = j ∨ c = d) (h : r.Tells key P s)
    (h' : s.Tells key P t) : r.Tells key P t := by
  -- what has the name at the end had it before, unless it was not there
  have hfirst : ∀ i, t.nameOf? i = some key → s.phaseOf i ≠ r.phaseOf i →
      s.nameOf? i = some key := by
    intro i hi hne
    cases hname : s.nameOf? i with
    | none =>
        have hnone : r.nameOf? i = none := by
          by_contra hsome
          obtain ⟨name, hr⟩ := Option.ne_none_iff_exists'.mp hsome
          rw [h.names i name hr] at hname
          cases hname
        exact absurd ((phaseOf_of_none hname).trans (phaseOf_of_none hnone).symm) hne
    | some name => exact (h'.names i name hname).symm.trans hi
  refine ⟨fun i name hr => h'.names i name (h.names i name hr), fun i name ht => ?_,
    Nat.le_trans h.nextId h'.nextId, fun i => (h.later i).trans (h'.later i), fun i hi hne => ?_,
    fun hsame => ?_⟩
  · rcases h'.fresh i name ht with hs | hnew
    · exact h.fresh i name hs
    · exact .inr (Nat.le_trans h.nextId hnew)
  · by_cases hlast : t.phaseOf i = s.phaseOf i
    · have hturned := hlast ▸ hne
      obtain ⟨hPi, hshown⟩ := h.turned i (hfirst i hi hturned) hturned
      rw [hlast]
      refine ⟨hPi, ?_⟩
      by_cases hquiet : ∀ j, t.nameOf? j = some key → t.phaseOf j = s.phaseOf j
      · rw [h'.stayed hquiet, hshown]
      · simp only [not_forall] at hquiet
        obtain ⟨j, hj, hjturned⟩ := hquiet
        obtain ⟨hPj, hshown'⟩ := h'.turned j hj hjturned
        rcases hP i _ j _ hPi hPj with rfl | hstate
        · exact absurd hlast hjturned
        · rw [hshown', hstate]
    · exact h'.turned i hi hlast
  · have hmiddle : ∀ i, t.nameOf? i = some key → s.phaseOf i = r.phaseOf i := fun i hi =>
      (h.later i).antisymm (hsame i hi ▸ h'.later i)
    have hlast : t.shownUnder key = s.shownUnder key :=
      h'.stayed fun i hi => (hsame i hi).trans (hmiddle i hi).symm
    rw [hlast]
    refine h.stayed fun i hi => ?_
    exact hmiddle i (h'.names i key hi)

/-- A registry whose entries keep their numbers, names and phases, and whose gauges stay. -/
theorem of_map {g : BreakerEntry → BreakerEntry} (P : Nat → CircuitState → Prop)
    (hg : ∀ e, ((g e).id, (g e).breaker.name, (g e).breaker.phase) =
      (e.id, e.breaker.name, e.breaker.phase))
    (hentries : s.entries = r.entries.map g)
    (hsame : (s.meters, s.nextId) = (r.meters, r.nextId)) : r.Tells key P s := by
  obtain ⟨hmeters, hnext⟩ := Prod.mk.inj hsame
  simp only [Prod.mk.injEq] at hg
  have hentry := entry?_map (fun e => (hg e).1) hentries
  have hname : ∀ i, s.nameOf? i = r.nameOf? i := by
    intro i
    rw [nameOf?, nameOf?, hentry i, Option.map_map]
    congr 1
    funext e
    exact (hg e).2.1
  have hphase : ∀ i, s.phaseOf i = r.phaseOf i := by
    intro i
    rw [phaseOf, phaseOf, hentry i, Option.map_map]
    congr 2
    funext e
    exact (hg e).2.2
  have hshown : s.shownUnder key = r.shownUnder key := by
    rw [shownUnder, shownUnder, metersOf, metersOf, hmeters]
  exact ⟨fun i name h => (hname i).trans h, fun i name h => .inl ((hname i).symm.trans h),
    Nat.le_of_eq hnext.symm, fun i => (hphase i) ▸ .refl _, fun i _ hne => absurd (hphase i) hne,
    fun _ => hshown⟩

/-- A breaker that is changed by its own moves tells the gauge under its name. -/
theorem modify {f : Breaker → Breaker × α} (hf : ∀ b : Breaker, b.Tracks (f b).1) (r : Registry)
    (id : Nat) (hP : ∀ e, r.entry? id = some e → e.breaker.name = key →
      (f (r.loaded e)).1.phase ≠ e.breaker.phase → P id (f (r.loaded e)).1.state) :
    r.Tells key P (r.modify id f).1 := by
  have hname := nameOf?_modify (fun b => (hf b).turns) r id
  cases he : r.entry? id with
  | none =>
      have hnone : r.modify id f = (r, none) := by simp [Registry.modify, he]
      rw [hnone]
      exact refl key P r
  | some e =>
      have hid : e.id = id := (Keyed.of_find?_eq_some he).2
      have htracks := hf (r.loaded e)
      have hkept : (f (r.loaded e)).1.name = e.breaker.name := htracks.turns.advances.name
      have hloaded : (r.loaded e).phase = e.breaker.phase := rfl
      have hentry : ∀ i, entry? (r.modify id f).1 i = (r.entry? i).map fun x =>
          if x.id = id then { x with breaker := (f (r.loaded e)).1 } else x := by
        rw [modify_eq he]
        exact entry?_map (fun x => by split <;> rfl) rfl
      have hphase : (r.modify id f).1.phaseOf id = (f (r.loaded e)).1.phase := by
        rw [phaseOf, hentry id, he, Option.map_some, if_pos hid]
        rfl
      have hbefore : r.phaseOf id = e.breaker.phase := by
        rw [phaseOf, he]
        rfl
      have hothers : ∀ i, i ≠ id → (r.modify id f).1.phaseOf i = r.phaseOf i := by
        intro i hi
        rw [phaseOf, phaseOf, hentry i, Option.map_map]
        cases hx : r.entry? i with
        | none => rfl
        | some x =>
            have hxid : x.id ≠ id := (Keyed.of_find?_eq_some hx).2 ▸ hi
            simp [hxid]
      have hshown : (r.modify id f).1.shownUnder key =
          if key = e.breaker.name then (f (r.loaded e)).1.meters.shown else r.shownUnder key := by
        rw [modify_eq he, shownUnder, metersOf_setMeters, hkept]
        split <;> rfl
      have hnamed : r.nameOf? id = some e.breaker.name := by
        rw [nameOf?, he]
        rfl
      have hnext : (r.modify id f).1.nextId = r.nextId := by
        rw [modify_eq he]
        rfl
      refine ⟨fun i name h => (hname i).trans h, fun i name h => .inl ((hname i).symm.trans h),
        Nat.le_of_eq hnext.symm, fun i => ?_, fun i hi hne => ?_, fun hsame => ?_⟩
      · by_cases hi : i = id
        · rw [hi, hphase, hbefore, ← hloaded]
          exact htracks.turns.advances.later
        · rw [hothers i hi]
          exact .refl _
      · by_cases hiid : i = id
        · subst hiid
          rw [hphase, hbefore] at hne
          rw [hname i, hnamed] at hi
          have hkey : e.breaker.name = key := Option.some.inj hi
          rw [hphase, hshown, if_pos hkey.symm]
          exact ⟨hP e he hkey hne, htracks.turned hne⟩
        · exact absurd (hothers i hiid) hne
      · rw [hshown]
        split
        · rename_i hkey
          have hquiet := hsame id (by rw [hname id, hnamed, hkey])
          rw [hphase, hbefore] at hquiet
          rw [htracks.stayed hquiet, hkey]
          rfl
        · rfl

/-- To make a breaker turns none. -/
theorem getOrCreate (hr : r.WellFormed) (k : String) (config : Option BreakerConfig) :
    r.Tells key P (r.getOrCreate k config).1 := by
  cases hfound : r.find? k with
  | some e =>
      rw [getOrCreate_of_some hfound]
      exact refl key P r
  | none =>
      have hphase : ∀ i, (r.getOrCreate k config).1.phaseOf i = r.phaseOf i := by
        intro i
        rw [getOrCreate_of_none hfound]
        simp only [phaseOf, entry?, List.find?_append]
        cases List.find? (fun e : BreakerEntry => e.id == i) r.entries with
        | some e => rfl
        | none =>
            rw [List.find?_singleton]
            split <;> rfl
      have hshown : (r.getOrCreate k config).1.shownUnder key = r.shownUnder key := by
        rw [getOrCreate_of_none hfound]
        rfl
      have hnext : r.nextId ≤ (r.getOrCreate k config).1.nextId := by
        rw [getOrCreate_of_none hfound]
        exact Nat.le_succ _
      refine ⟨fun i name h => (nameOf?_getOrCreate (hr.lt_nextId h) k config).trans h,
        fun i name h => ?_, hnext, fun i => (hphase i) ▸ .refl _,
        fun i _ hne => absurd (hphase i) hne, fun _ => hshown⟩
      rcases Nat.lt_or_ge i r.nextId with hold | hnew
      · exact .inl ((nameOf?_getOrCreate hold k config).symm.trans h)
      · exact .inr hnew

/-- Calls are counted without a turn, while the entry is kept. -/
theorem countCalls (hr : r.WellFormed) {f : Nat → Nat}
    (hf : ∀ e ∈ r.entries, e.id = id → e.registered = true ∨ f e.calls ≠ 0) :
    r.Tells key P (r.countCalls id f) :=
  of_map P (fun e => by split <;> rfl) (hr.entries_countCalls hf) rfl

/-- No breaker but one turns. -/
theorem update {f : Breaker → Breaker} (hf : ∀ b : Breaker, b.Tracks (f b)) (r : Registry)
    (id : Nat) : r.Tells key (fun i _ => i = id) (r.update id f) :=
  modify (f := fun b => (f b, ())) hf r id fun _ _ _ _ => rfl

theorem trans_alone (h : r.Tells key (fun i _ => i = id) s)
    (h' : s.Tells key (fun i _ => i = id) t) : r.Tells key (fun i _ => i = id) t :=
  trans (fun _ _ _ _ hi hj => .inl (hi.trans hj.symm)) h h'

theorem enter (hr : r.WellFormed) (id now : Nat) :
    r.Tells key (fun i _ => i = id) (r.enter id now).1 := by
  have hmodified : r.Tells key (fun i _ => i = id) (r.modify id (·.enter now)).1 :=
    modify (fun b => .enter b now) r id fun _ _ _ _ => rfl
  have hwell := hr.modify id (·.enter now)
  unfold Registry.enter
  generalize r.modify id (·.enter now) = changed at hmodified hwell
  obtain ⟨s, answer⟩ := changed
  cases answer with
  | none => exact hmodified
  | some permission =>
      cases permission with
      | ok a =>
          exact trans_alone hmodified (countCalls hwell fun e _ _ => .inr (Nat.succ_ne_zero e.calls))
      | error err => exact hmodified

/-- Breakers that are changed one after the other, all to one state if they turn. -/
theorem modifyEach {f : Breaker → Breaker × α} {c : CircuitState}
    (hf : ∀ b : Breaker, b.Tracks (f b).1)
    (hc : ∀ b : Breaker, (f b).1.phase ≠ b.phase → (f b).1.state = c) (ids : List Nat)
    (r : Registry) : r.Tells key (fun _ d => d = c) (r.modifyEach f ids).1 := by
  induction ids generalizing r with
  | nil => exact refl key _ r
  | cons id rest ih =>
      have hone : r.Tells key (fun _ d => d = c) (r.modify id f).1 :=
        modify hf r id fun e _ _ hne => hc (r.loaded e) hne
      exact trans (fun _ _ _ _ hi hj => .inr (hi.trans hj.symm)) hone (ih _)

theorem ring (r : Registry) (now : Nat) (k : String) (nth : Nat) (timer : ResetTimer) :
    ∃ id, r.Tells key (fun i _ => i = id) (r.ring now k nth timer) := by
  unfold Registry.ring
  split
  · exact ⟨0, refl key _ r⟩
  · rename_i e he
    refine ⟨e.id, update (fun b => ?_) r e.id⟩
    split
    · exact .fireTimer b timer.generation
    · exact .refl b

end Tells

/-- A key leads to a breaker whatever the breaker does. -/
theorem WellFormed.leads_modify (hr : r.WellFormed) {f : Breaker → Breaker × α}
    (hf : ∀ b : Breaker, b.Turns (f b).1) (hlead : r.Leads key i) : (r.modify id f).1.Leads key i := by
  cases he : r.entry? id with
  | none =>
      have hnone : r.modify id f = (r, none) := by simp [Registry.modify, he]
      rw [hnone]
      exact hlead
  | some e => exact (hr.modify_replaces he f).1.leads (hf _).advances.name key i hlead

/-- What a key leads to has not lost its key. -/
theorem WellFormed.registered_of_leads (hr : r.WellFormed) (hlead : r.Leads key id) :
    ∀ e ∈ r.entries, e.id = id → e.registered = true := by
  obtain ⟨x, hx, rfl⟩ := hlead
  obtain ⟨hmem, hregistered, -⟩ := of_find? hx
  intro e he hid
  rw [Keyed.eq_of_mem hr.distinct hmem he hid]
  exact hregistered

/-- The end of a call through the breaker of a key: no other breaker turns, and the key leads where
it led. -/
theorem WellFormed.settles (hr : r.WellFormed) {k : String} {ticket : BreakerTicket}
    (hlead : r.Leads k ticket.entry) (now : Nat) (v : Verdict) :
    (r.settle now ticket v).WellFormed ∧ (r.settle now ticket v).Leads k ticket.entry ∧
      r.Tells key (fun i _ => i = ticket.entry) (r.settle now ticket v) := by
  let u : Registry := r.update ticket.entry (·.settle now ticket.admission v)
  have hu : u.WellFormed := hr.modify ticket.entry _
  have huLeads : u.Leads k ticket.entry := hr.leads_modify (fun b => .settle b now _ v) hlead
  have hkept : ∀ e ∈ u.entries, e.id = ticket.entry → e.registered = true ∨ e.calls - 1 ≠ 0 :=
    fun e he hid => .inl (hu.registered_of_leads huLeads e he hid)
  have htells : r.Tells key (fun i _ => i = ticket.entry) u :=
    .update (fun b => .settle b now ticket.admission v) r ticket.entry
  exact ⟨hu.countCalls ticket.entry _, (hu.countCalls_same hkept).leads k ticket.entry huLeads,
    htells.trans_alone (.countCalls hu hkept)⟩

/-- So does a call that ends at once. -/
theorem WellFormed.execute (hr : r.WellFormed) {k : String} (hlead : r.Leads k id) (now : Nat)
    (outcome : Except RoutingError α) :
    (r.execute id now outcome).1.WellFormed ∧ (r.execute id now outcome).1.Leads k id ∧
      r.Tells key (fun i _ => i = id) (r.execute id now outcome).1 := by
  have hentered : r.Tells key (fun i _ => i = id) (r.enter id now).1 := .enter hr id now
  obtain ⟨hwell, hunjudged⟩ := hr.enter id now
  have hleads := hunjudged.leads k id hlead
  have hticket := @entry_of_enter r id now
  unfold Registry.execute
  generalize r.enter id now = entered at hentered hwell hleads hticket
  obtain ⟨s, answer⟩ := entered
  cases answer with
  | error err => exact ⟨hwell, hleads, hentered⟩
  | ok t =>
      obtain rfl : t.entry = id := hticket rfl
      obtain ⟨hwell', hleads', hsettled⟩ := hwell.settles hleads now (.ofResult outcome)
      exact ⟨hwell', hleads', hentered.trans_alone hsettled⟩

/-- So do calls that end at once, any number of times. -/
theorem WellFormed.execTimes (hr : r.WellFormed) {k : String} (hlead : r.Leads k id) (now : Nat)
    (outcome : Except RoutingError Json) (n : Nat) {counts : Nat × Nat} :
    r.Tells key (fun i _ => i = id) (BreakerSession.execTimes now outcome id n (r, counts)).1 := by
  induction n generalizing r counts with
  | zero => exact .refl key _ r
  | succ n ih =>
      obtain ⟨succeeded, rejected⟩ := counts
      have hexecuted : (r.execute id now outcome).1.WellFormed ∧
          (r.execute id now outcome).1.Leads k id ∧
            r.Tells key (fun i _ => i = id) (r.execute id now outcome).1 :=
        hr.execute hlead now outcome
      obtain ⟨hwell, hleads, hone⟩ := hexecuted
      unfold BreakerSession.execTimes
      generalize r.execute id now outcome = executed at hwell hleads hone
      obtain ⟨s, result, made⟩ := executed
      have hrest : ∀ counts, r.Tells key (fun i _ => i = id)
          (BreakerSession.execTimes now outcome id n (s, counts)).1 :=
        fun counts => hone.trans_alone (ih hwell hleads)
      rcases result with err | value
      · cases err <;> exact hrest _
      · exact hrest _

end Registry

end InferenceRouting
