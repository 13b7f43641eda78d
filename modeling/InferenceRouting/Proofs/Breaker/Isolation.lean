import InferenceRouting.Proofs.Breaker.Mirrors

/-!
# Keys apart

Of a run over many keys, the part that concerns one key can be run alone, at the same times, and
nothing that is told of the key changes (`BreakerSession.keys_apart`).

Beside the run the part of one key is followed in a mirror (`BreakerSession.Mirrors`): an event that
concerns the key happens there too, and any other is not seen there (`Mirrors.happen`).
-/

namespace InferenceRouting

namespace BreakerSession

open Registry (Handles)

variable {s t s' t' : BreakerSession} {ρ : Nat → Nat} {key label : String} {e : Event}
  {op : BreakerStep} {α : Type}

/-- A session that has the part of another that belongs to one key: its breakers, renumbered, and
the calls through them. -/
structure Mirrors (key : String) (ρ : Nat → Nat) (s s' : BreakerSession) : Prop where
  registry : s.registry.Mirrors key ρ s'.registry
  now : s'.now = s.now
  calls : ∀ label t, s.calls.lookup label = some t → s.registry.nameOf? t.entry = some key →
    s'.calls.lookup label = some (t.renumber ρ)
  recent : ∀ label t, s.calls.lookup label = some t → t.entry < s.registry.nextId

namespace Mirrors

/-- Nothing is under way in a session that begins. -/
theorem opened (key : String) (config : BreakerConfig) (timersEnabled : Bool) :
    Mirrors key (fun n => n) (opened config timersEnabled) (opened config timersEnabled) where
  registry := .new key config timersEnabled
  now := rfl
  calls _ _ h := by cases h
  recent _ _ h := by cases h

/-- The mirror of a session in which the same calls are under way and nothing has got a name. -/
theorem of_names (h : Mirrors key ρ s s') (hregistry : t.registry.Mirrors key ρ t'.registry)
    (hnow : t'.now = t.now) (hcalls : (t.calls, t'.calls) = (s.calls, s'.calls))
    (hnext : t.registry.nextId = s.registry.nextId)
    (hnames : ∀ i name, t.registry.nameOf? i = some name → s.registry.nameOf? i = some name) :
    Mirrors key ρ t t' := by
  obtain ⟨hcalls, hcalls'⟩ := Prod.mk.inj hcalls
  refine ⟨hregistry, hnow, fun label ticket hticket hname => ?_, fun label ticket hticket => ?_⟩
  · rw [hcalls']
    rw [hcalls] at hticket
    exact h.calls label ticket hticket (hnames _ key hname)
  · rw [hcalls] at hticket
    rw [hnext]
    exact h.recent label ticket hticket

theorem of_handles (h : Mirrors key ρ s s') (hregistry : t.registry.Mirrors key ρ t'.registry)
    (hnow : t'.now = t.now) (hcalls : (t.calls, t'.calls) = (s.calls, s'.calls))
    {p : String → Prop} (ht : Handles p s.registry t.registry) : Mirrors key ρ t t' :=
  h.of_names hregistry hnow hcalls ht.nextId_eq fun _ _ => ht.nameOf? h.registry.wellFormed

/-- The breaker of the key is made in the mirror as well. -/
theorem make (h : Mirrors key ρ s s') (config : Option BreakerConfig) :
    ∃ ρ', Mirrors key ρ' { s with registry := (s.registry.getOrCreate key config).1 }
        { s' with registry := (s'.registry.getOrCreate key config).1 } ∧
      ρ' (s.registry.getOrCreate key config).2 = (s'.registry.getOrCreate key config).2 := by
  obtain ⟨ρ', hregistry, hid, hold⟩ := h.registry.getOrCreate config
  refine ⟨ρ', ⟨hregistry, h.now, fun label t ht hname => ?_, fun label t ht => ?_⟩, hid⟩
  · have hrecent := h.recent label t ht
    rw [Registry.nameOf?_getOrCreate hrecent] at hname
    rw [h.calls label t ht hname, BreakerTicket.renumber, BreakerTicket.renumber, hold _ hrecent]
  · refine Nat.lt_of_lt_of_le (h.recent label t ht) ?_
    unfold Registry.getOrCreate
    split
    · exact Nat.le_refl _
    · exact Nat.le_succ _

/-- The call with a label is no longer under way. -/
theorem dropCall (h : Mirrors key ρ s s') (label : String) :
    Mirrors key ρ (s.dropCall label) (s'.dropCall label) where
  registry := h.registry
  now := h.now
  calls m t ht hname := by
    by_cases hm : m = label
    · subst hm
      rw [BreakerSession.dropCall, Keyed.lookup_filter_self] at ht
      cases ht
    · rw [BreakerSession.dropCall, Keyed.lookup_filter_of_ne hm] at ht ⊢
      exact h.calls m t ht hname
  recent m t ht := by
    by_cases hm : m = label
    · subst hm
      rw [BreakerSession.dropCall, Keyed.lookup_filter_self] at ht
      cases ht
    · rw [BreakerSession.dropCall, Keyed.lookup_filter_of_ne hm] at ht
      exact h.recent m t ht

/-- A call through the breaker of the key has ended, in the mirror as well. -/
theorem endCall (h : Mirrors key ρ s s') {r r' : Registry} (hregistry : r.Mirrors key ρ r')
    {p : String → Prop} (hr : Handles p s.registry r) (label : String) (e : CallEnd) :
    Mirrors key ρ (({ s with registry := r }.dropCall label).note label e)
      (({ s' with registry := r' }.dropCall label).note label e) := by
  have hended : Mirrors key ρ { s with registry := r } { s' with registry := r' } :=
    h.of_handles hregistry h.now rfl hr
  have hdropped := hended.dropCall label
  exact ⟨hdropped.registry, hdropped.now, hdropped.calls, hdropped.recent⟩

/-- A call has been admitted by the breaker of the key, in the mirror as well. -/
theorem addCall (h : Mirrors key ρ s s') (label : String) {ticket : BreakerTicket}
    (hrecent : ticket.entry < s.registry.nextId) :
    Mirrors key ρ { s with calls := (label, ticket) :: s.calls }
      { s' with calls := (label, ticket.renumber ρ) :: s'.calls } where
  registry := h.registry
  now := h.now
  calls m t ht hname := by
    by_cases hm : m = label
    · subst hm
      rw [List.lookup_cons_self] at ht ⊢
      rw [Option.some.inj ht]
    · have hne : (m == label) = false := beq_false_of_ne hm
      simp only [List.lookup_cons, hne] at ht ⊢
      exact h.calls m t ht hname
  recent m t ht := by
    by_cases hm : m = label
    · subst hm
      rw [List.lookup_cons_self] at ht
      exact Option.some.inj ht ▸ hrecent
    · have hne : (m == label) = false := beq_false_of_ne hm
      simp only [List.lookup_cons, hne] at ht
      exact h.recent m t ht

/-- A session does in the mirror what another does, and tells the part that is about the key. -/
structure Same (key : String) (ρ : Nat → Nat) (t t' : BreakerSession × BreakerReply) : Prop where
  mirrors : Mirrors key ρ t.1 t'.1
  reply : t'.2 = t.2.about key
  finished : t'.1.finished = t.1.finished

/-- To ask the breaker of the key is to ask it in the mirror. -/
theorem ask (h : Mirrors key ρ s s') (hfinished : s'.finished = s.finished)
    {f : Breaker → Breaker × α} (hf : ∀ b : Breaker, b.Turns (f b).1) {reply : α → BreakerReply}
    (hreply : ∀ a, (reply a).about key = reply a) :
    Same key ρ (s.ask key f reply) (s'.ask key f reply) := by
  have hfind := h.registry.find?_eq
  unfold BreakerSession.ask
  cases hfound : s.registry.find? key with
  | none =>
      rw [hfound] at hfind
      simp only [hfind, Option.map_none]
      exact ⟨h, rfl, hfinished⟩
  | some e =>
      rw [hfound] at hfind
      simp only [hfind, Option.map_some]
      have hname := h.registry.wellFormed.nameOf?_of_leads ⟨e, hfound, rfl⟩
      obtain ⟨hmirrors, hanswer⟩ := h.registry.modify hname hf
      have hhandles : Handles (fun _ => True) s.registry (s.registry.modify e.id f).1 :=
        .modify .refl e.id f hf fun _ _ => trivial
      change Registry.Mirrors key ρ _ (s'.registry.modify (e.renumber ρ).id f).1 at hmirrors
      change (s'.registry.modify (e.renumber ρ).id f).2 = _ at hanswer
      generalize s.registry.modify e.id f = changed at hmirrors hanswer hhandles
      generalize s'.registry.modify (e.renumber ρ).id f = changed' at hmirrors hanswer
      obtain ⟨r, answer⟩ := changed
      obtain ⟨r', answer'⟩ := changed'
      obtain rfl : answer' = answer := hanswer
      cases answer' with
      | none => exact ⟨h.of_handles hmirrors h.now rfl hhandles, rfl, hfinished⟩
      | some a =>
          exact ⟨h.of_handles hmirrors h.now rfl hhandles, (hreply a).symm, hfinished⟩

/-- To change the breaker of the key is to change it in the mirror. -/
theorem withBreaker (h : Mirrors key ρ s s') (hfinished : s'.finished = s.finished)
    {f : Breaker → Breaker} (hf : ∀ b : Breaker, b.Turns (f b)) :
    ∃ ρ', Same key ρ' (s.withBreaker key f, .nothing) (s'.withBreaker key f, .nothing) := by
  obtain ⟨ρ', hmade, hid⟩ := h.make none
  have hname := hmade.registry.wellFormed.nameOf?_of_leads (s.registry.getOrCreate_leads key none)
  obtain ⟨hmirrors, -⟩ := hmade.registry.modify hname (f := fun b => (f b, ())) hf
  rw [hid] at hmirrors
  have hhandles : Handles (fun _ => True) (s.registry.getOrCreate key none).1
      (s.withBreaker key f).registry := .update .refl _ hf fun _ _ => trivial
  exact ⟨ρ', hmade.of_handles hmirrors h.now rfl hhandles, rfl, hfinished⟩

/-- To ask for a call through the breaker of the key is to ask for it in the mirror. -/
theorem start (h : Mirrors key ρ s s') (hfinished : s'.finished = s.finished) (label : String) :
    ∃ ρ', Same key ρ' (s.step (.start key label)) (s'.step (.start key label)) := by
  obtain ⟨registry', now', calls', finished'⟩ := s'
  obtain rfl : now' = s.now := h.now
  obtain rfl : finished' = s.finished := hfinished
  obtain ⟨ρ', hmade, hid⟩ := h.make none
  have hlead := s.registry.getOrCreate_leads key none
  have hname := hmade.registry.wellFormed.nameOf?_of_leads hlead
  have hrecent := hmade.registry.wellFormed.lt_nextId hname
  obtain ⟨hmirrors, hanswer⟩ := hmade.registry.enter hname s.now
  have hhandles : Handles (fun _ => True) (s.registry.getOrCreate key none).1
      ((s.registry.getOrCreate key none).1.enter (s.registry.getOrCreate key none).2 s.now).1 :=
    .enter hmade.registry.wellFormed _ s.now fun _ _ => trivial
  have hticket := @Registry.entry_of_enter (s.registry.getOrCreate key none).1
    (s.registry.getOrCreate key none).2 s.now
  rw [hid] at hmirrors hanswer
  refine ⟨ρ', ?_⟩
  simp only [step]
  generalize (s.registry.getOrCreate key none).1.enter _ s.now = entered at *
  generalize (registry'.getOrCreate key none).1.enter _ s.now = entered' at *
  obtain ⟨r, answer⟩ := entered
  obtain ⟨r', answer'⟩ := entered'
  obtain rfl : answer' = answer.map (·.renumber ρ') := hanswer
  have hboth : Mirrors key ρ' { s with registry := r } ⟨r', s.now, calls', s.finished⟩ :=
    hmade.of_handles hmirrors rfl rfl hhandles
  cases answer with
  | error err => exact ⟨⟨hboth.registry, rfl, hboth.calls, hboth.recent⟩, rfl, rfl⟩
  | ok ticket =>
      have hnew : ticket.entry < r.nextId := by
        rw [hticket rfl, hhandles.nextId_eq]
        exact hrecent
      exact ⟨hboth.addCall label hnew, rfl, rfl⟩

/-- The call of the key with a label is under way in the mirror. -/
theorem exists_call (h : Mirrors key ρ s s') (hlabel : (s.keyOf? label == some key) = true) :
    ∃ t, s.calls.lookup label = some t ∧ s.registry.nameOf? t.entry = some key ∧
      s'.calls.lookup label = some (t.renumber ρ) := by
  obtain ⟨t, ht, hname⟩ := Option.bind_eq_some_iff.mp (beq_iff_eq.mp hlabel)
  exact ⟨t, ht, hname, h.calls label t ht hname⟩

/-- To make the breaker of the key is to make it in the mirror. -/
theorem create (h : Mirrors key ρ s s') (hfinished : s'.finished = s.finished)
    (config : Option BreakerConfig) :
    ∃ ρ', Same key ρ' (s.step (.create key config)) (s'.step (.create key config)) := by
  obtain ⟨ρ', hmade, hid⟩ := h.make config
  obtain ⟨e, hfound, heid⟩ := s.registry.getOrCreate_leads key config
  obtain ⟨hmem, -, hname⟩ := Registry.of_find? hfound
  have he := hmade.registry.wellFormed.entry?_eq hmem
  have he' := hmade.registry.entry?_eq hmem hname
  rw [heid] at he he'
  rw [hid] at he'
  refine ⟨ρ', hmade, ?_, hfinished⟩
  dsimp only at he he'
  simp only [step, he, he']
  rfl

/-- To look for the breaker of the key is to look for it in the mirror. -/
theorem lookup (h : Mirrors key ρ s s') (hfinished : s'.finished = s.finished) :
    Same key ρ (s.step (.lookup key)) (s'.step (.lookup key)) := by
  refine ⟨h, ?_, hfinished⟩
  have hfind := h.registry.find?_eq
  simp only [step, hfind]
  cases s.registry.find? key <;> rfl

/-- A call through the breaker of the key that ends at once is made in the mirror as well. -/
theorem exec (h : Mirrors key ρ s s') (hfinished : s'.finished = s.finished)
    (outcome : Except RoutingError Json) :
    ∃ ρ', Same key ρ' (s.step (.exec key outcome)) (s'.step (.exec key outcome)) := by
  obtain ⟨registry', now', calls', finished'⟩ := s'
  obtain rfl : now' = s.now := h.now
  obtain ⟨ρ', hmade, hid⟩ := h.make none
  obtain ⟨hmirrors, hresult, -⟩ :=
    hmade.registry.execute (s.registry.getOrCreate_leads key none) s.now outcome
  rw [hid] at hmirrors hresult
  refine ⟨ρ', hmade.of_handles (p := fun _ => True) hmirrors rfl rfl
    (.execute hmade.registry.wellFormed _ s.now outcome fun _ _ => trivial), ?_, hfinished⟩
  exact congrArg (fun told : Except RoutingError Json × Bool =>
    BreakerReply.executed told.1 told.2) hresult

/-- So are many such calls. -/
theorem execMany (h : Mirrors key ρ s s') (hfinished : s'.finished = s.finished) (times : Nat)
    (outcome : Except RoutingError Json) :
    ∃ ρ', Same key ρ' (s.step (.execMany key times outcome))
      (s'.step (.execMany key times outcome)) := by
  obtain ⟨registry', now', calls', finished'⟩ := s'
  obtain rfl : now' = s.now := h.now
  obtain ⟨ρ', hmade, hid⟩ := h.make none
  obtain ⟨hmirrors, hresult⟩ := hmade.registry.execTimes s.now outcome times (0, 0)
    (s.registry.getOrCreate_leads key none)
  rw [hid] at hmirrors hresult
  refine ⟨ρ', hmade.of_handles (p := fun _ => True) hmirrors rfl rfl
    (.execTimes times hmade.registry.wellFormed fun _ _ => trivial), ?_, hfinished⟩
  exact congrArg (fun told : Nat × Nat => BreakerReply.tally told.1 told.2) hresult

/-- A call of the key that has got its result has got it in the mirror. -/
theorem finish (h : Mirrors key ρ s s') (hfinished : s'.finished = s.finished) {label : String}
    (hlabel : (s.keyOf? label == some key) = true) (outcome : Except RoutingError Json) :
    Same key ρ (s.step (.finish label outcome)) (s'.step (.finish label outcome)) := by
  obtain ⟨registry', now', calls', finished'⟩ := s'
  obtain rfl : now' = s.now := h.now
  obtain rfl : finished' = s.finished := hfinished
  obtain ⟨t, ht, hname, ht'⟩ := h.exists_call hlabel
  have hended := h.endCall (h.registry.settle hname s.now (.ofResult outcome))
    (.settle (p := fun _ => True) h.registry.wellFormed s.now t _ fun _ _ => trivial) label
    (.result outcome)
  dsimp only at ht'
  simp only [step, ht, ht']
  exact ⟨hended, rfl, rfl⟩

/-- A call of the key that is given up is given up in the mirror. -/
theorem abandon (h : Mirrors key ρ s s') (hfinished : s'.finished = s.finished) {label : String}
    (hlabel : (s.keyOf? label == some key) = true) :
    Same key ρ (s.step (.abandon label)) (s'.step (.abandon label)) := by
  obtain ⟨registry', now', calls', finished'⟩ := s'
  obtain rfl : finished' = s.finished := hfinished
  obtain ⟨t, ht, hname, ht'⟩ := h.exists_call hlabel
  have hended := h.endCall (h.registry.abandon hname)
    (.abandon (p := fun _ => True) h.registry.wellFormed t fun _ _ => trivial) label .abandoned
  dsimp only at ht'
  simp only [step, ht, ht']
  exact ⟨hended, rfl, rfl⟩

/-- What is done to all breakers is done to those in the mirror. -/
theorem step_all (h : Mirrors key ρ s s') (hfinished : s'.finished = s.finished)
    (hop : op = .resetAll ∨ op = .clear ∨ op = .disableTimers ∨ ∃ ms, op = .advance ms) :
    Same key ρ (s.step op) (s'.step op) := by
  have hwell := h.registry.wellFormed
  obtain ⟨registry', now', calls', finished'⟩ := s'
  obtain rfl : now' = s.now := h.now
  rcases hop with rfl | rfl | rfl | ⟨ms, rfl⟩
  · have hhandles := step_handles (s := s) hwell .resetAll (by simp) (by simp)
    exact ⟨h.of_handles h.registry.resetAll rfl rfl hhandles, rfl, hfinished⟩
  · exact ⟨h.of_names h.registry.clear rfl rfl rfl fun _ _ => hwell.nameOf?_of_clear, rfl,
      hfinished⟩
  · exact ⟨h.of_names h.registry.disableTimers rfl rfl rfl
      fun i _ hname => (Registry.nameOf?_disableTimers s.registry i).symm.trans hname, rfl,
      hfinished⟩
  · have hhandles := step_handles (s := s) hwell (.advance ms) (by simp) (by simp)
    exact ⟨h.of_handles (h.registry.fireDue _) rfl rfl hhandles, rfl, hfinished⟩

/-- To look at all breakers is to look at those in the mirror. -/
theorem reports (h : Mirrors key ρ s s') (hfinished : s'.finished = s.finished) :
    Same key ρ (s.step .reports) (s'.step .reports) := by
  obtain ⟨registry', now', calls', finished'⟩ := s'
  obtain rfl : now' = s.now := h.now
  have hhandles := step_handles (s := s) h.registry.wellFormed .reports (by simp) (by simp)
  obtain ⟨hmirrors, htold⟩ := h.registry.reports s.now
  exact ⟨h.of_handles hmirrors rfl rfl hhandles, congrArg BreakerReply.reports htold, hfinished⟩

/-- **Step theorem, own operations.**  What concerns the key happens in the mirror in the same
way. -/
theorem step_own (h : Mirrors key ρ s s') (hfinished : s'.finished = s.finished)
    (hop : s.concerns key (.step op) = true) : ∃ ρ', Same key ρ' (s.step op) (s'.step op) := by
  have hkey : ∀ {k : String}, (k == key) = true → k = key := fun hk => beq_iff_eq.mp hk
  have hnow : s'.now = s.now := h.now
  have hread : ∀ b : Breaker, b.Turns (b.read s.now).1 := fun b => .refresh b s.now
  cases op with
  | create k config =>
      obtain rfl := hkey hop
      exact h.create hfinished config
  | lookup k =>
      obtain rfl := hkey hop
      exact ⟨ρ, h.lookup hfinished⟩
  | exec k outcome =>
      obtain rfl := hkey hop
      exact h.exec hfinished outcome
  | execMany k times outcome =>
      obtain rfl := hkey hop
      exact h.execMany hfinished times outcome
  | start k label =>
      obtain rfl := hkey hop
      exact h.start hfinished label
  | finish label outcome => exact ⟨ρ, h.finish hfinished hop outcome⟩
  | abandon label => exact ⟨ρ, h.abandon hfinished hop⟩
  | state k =>
      obtain rfl := hkey hop
      simp only [step, hnow]
      exact ⟨ρ, h.ask hfinished hread fun _ => rfl⟩
  | failureCount k =>
      obtain rfl := hkey hop
      simp only [step, hnow]
      exact ⟨ρ, h.ask hfinished (fun b => .quiet rfl) fun _ => rfl⟩
  | available k =>
      obtain rfl := hkey hop
      simp only [step, hnow]
      exact ⟨ρ, h.ask hfinished hread fun _ => rfl⟩
  | report k =>
      obtain rfl := hkey hop
      simp only [step, hnow]
      exact ⟨ρ, h.ask hfinished (fun b => (Breaker.Turns.refresh b s.now).trans (.quiet rfl))
        fun _ => rfl⟩
  | trip k =>
      obtain rfl := hkey hop
      simp only [step, hnow]
      exact h.withBreaker hfinished fun b => .toOpen b s.now
  | reset k =>
      obtain rfl := hkey hop
      exact h.withBreaker hfinished fun b => .reset b
  | resetAll => exact ⟨ρ, h.step_all hfinished (.inl rfl)⟩
  | clear => exact ⟨ρ, h.step_all hfinished (.inr (.inl rfl))⟩
  | disableTimers => exact ⟨ρ, h.step_all hfinished (.inr (.inr (.inl rfl)))⟩
  | advance ms => exact ⟨ρ, h.step_all hfinished (.inr (.inr (.inr ⟨ms, rfl⟩)))⟩
  | keys => exact ⟨ρ, h, congrArg BreakerReply.keys h.registry.keys_eq, hfinished⟩
  | reports => exact ⟨ρ, h.reports hfinished⟩
  | size => exact absurd hop (by simp [concerns])
  | samples => exact absurd hop (by simp [concerns])

end Mirrors

/-- To ask a breaker leaves all but the registry. -/
theorem ask_frame (s : BreakerSession) (key : String) (f : Breaker → Breaker × α)
    (reply : α → BreakerReply) :
    ((s.ask key f reply).1.calls, (s.ask key f reply).1.now) = (s.calls, s.now) := by
  unfold ask
  split
  · rfl
  · split <;> rfl

/-- What an operation does to the calls under way: nothing, or one ends, or one is admitted by the
breaker that has been made for it. -/
theorem step_calls (s : BreakerSession) (op : BreakerStep) :
    (s.step op).1.calls = s.calls ∨
      (∃ label, (s.step op).1.calls = s.calls.filter (·.1 ≠ label)) ∨
      ∃ key label t, op = .start key label ∧ (s.step op).1.calls = (label, t) :: s.calls ∧
        t.entry = (s.registry.getOrCreate key none).2 := by
  cases op with
  | start key label =>
      have hticket := @Registry.entry_of_enter (s.registry.getOrCreate key none).1
        (s.registry.getOrCreate key none).2 s.now
      simp only [step]
      split
      · rename_i r t heq
        exact .inr (.inr ⟨key, label, t, rfl, rfl, hticket (congrArg Prod.snd heq)⟩)
      · exact .inl rfl
  | finish label | abandon label =>
      simp only [step]
      split
      · exact .inr (.inl ⟨label, rfl⟩)
      · exact .inl rfl
  | state | failureCount | available | report =>
      exact .inl (congrArg Prod.fst (s.ask_frame _ _ _))
  | _ => exact .inl rfl

/-- A call that is under way after an operation was under way before it, or is the one that the
operation has started. -/
theorem ticket_of_step {op : BreakerStep} {label : String} {t : BreakerTicket}
    (ht : (s.step op).1.calls.lookup label = some t) :
    s.calls.lookup label = some t ∨
      ∃ key, op = .start key label ∧ t.entry = (s.registry.getOrCreate key none).2 := by
  rcases s.step_calls op with hcalls | ⟨ended, hcalls⟩ | ⟨k, begun, ticket, rfl, hcalls, hentry⟩
  · exact .inl (hcalls ▸ ht)
  · rw [hcalls] at ht
    by_cases hlabel : label = ended
    · rw [hlabel, Keyed.lookup_filter_self] at ht
      cases ht
    · rw [Keyed.lookup_filter_of_ne hlabel] at ht
      exact .inl ht
  · rw [hcalls] at ht
    by_cases hlabel : label = begun
    · rw [hlabel, List.lookup_cons_self] at ht
      obtain rfl := Option.some.inj ht
      exact .inr ⟨k, by rw [hlabel], hentry⟩
    · rw [List.lookup_cons, beq_false_of_ne hlabel] at ht
      exact .inl ht

/-- Time passes in no operation but one. -/
theorem step_now (s : BreakerSession) {op : BreakerStep} (hop : ∀ ms, op ≠ .advance ms) :
    (s.step op).1.now = s.now := by
  cases op with
  | advance ms => exact absurd rfl (hop ms)
  | state | failureCount | available | report => exact congrArg Prod.snd (s.ask_frame _ _ _)
  | start | finish | abandon =>
      simp only [step]
      split <;> rfl
  | _ => rfl

/-- An operation concerns the key of the breaker that it makes. -/
theorem concerns_of_makes {config : Option BreakerConfig} (hop : op.makes? = some (key, config))
    (s : BreakerSession) (k : String) : s.concerns k (.step op) = (key == k) := by
  cases op <;> cases hop <;> rfl

/-- What a session knows of names and numbers after an operation was there before it, or belongs to
the breaker that the operation has made. -/
theorem prepared_names (s : BreakerSession) (op : BreakerStep) :
    s.registry.nextId ≤ (s.prepared op).nextId ∧
      ∀ i, i < s.registry.nextId → (s.prepared op).nameOf? i = s.registry.nameOf? i := by
  unfold prepared
  split
  · refine ⟨?_, fun i hi => Registry.nameOf?_getOrCreate hi _ _⟩
    unfold Registry.getOrCreate
    split
    · exact Nat.le_refl _
    · exact Nat.le_succ _
  · exact ⟨Nat.le_refl _, fun _ _ => rfl⟩

namespace Mirrors

/-- **Step theorem, others' operations.**  What does not concern the key is not seen in the
mirror. -/
theorem step_other (h : Mirrors key ρ s s') (hop : s.concerns key (.step op) = false) :
    Mirrors key ρ (s.step op).1 s' := by
  have hne : ∀ {op'}, s.concerns key (.step op') = true → op ≠ op' := fun hown heq =>
    Bool.false_ne_true (hop.symm.trans (heq ▸ hown))
  have hwell := h.registry.wellFormed
  have hhandles := step_handles hwell op (hne rfl) (hne rfl)
  have hprepared : (s.prepared op).Mirrors key ρ s'.registry := by
    unfold prepared
    split
    · rename_i k config hmakes
      rw [concerns_of_makes hmakes] at hop
      exact h.registry.getOrCreate_other (by simpa using hop) config
    · exact h.registry
  have hregistry : (s.step op).1.registry.Mirrors key ρ s'.registry :=
    hprepared.handles hhandles (by simp [hop])
  have hnow : s'.now = (s.step op).1.now :=
    h.now.trans (s.step_now fun ms => hne rfl).symm
  obtain ⟨hnext, hnames⟩ := s.prepared_names op
  have htickets : ∀ label t, (s.step op).1.calls.lookup label = some t →
      ((s.step op).1.registry.nameOf? t.entry = some key → s'.calls.lookup label =
        some (t.renumber ρ)) ∧ t.entry < (s.step op).1.registry.nextId := by
    intro label t ht
    rw [hhandles.nextId_eq]
    rcases ticket_of_step ht with hbefore | ⟨k, rfl, hentry⟩
    · have hrecent := h.recent label t hbefore
      refine ⟨fun hname => h.calls label t hbefore ?_, Nat.lt_of_lt_of_le hrecent hnext⟩
      exact (hnames t.entry hrecent).symm.trans (hhandles.nameOf? hprepared.wellFormed hname)
    · -- The call was started at another key, so its ticket is none of those in the mirror.
      have hname : (s.prepared (.start k label)).nameOf? t.entry = some k := by
        rw [hentry]
        exact hprepared.wellFormed.nameOf?_of_leads (s.registry.getOrCreate_leads k none)
      refine ⟨fun hkey => ?_, hprepared.wellFormed.lt_nextId hname⟩
      have hk := (hhandles.nameOf? hprepared.wellFormed hkey).symm.trans hname
      have hdiffer : (k == key) = false := hop
      exact absurd (Option.some.inj hk).symm (beq_eq_false_iff_ne.mp hdiffer)
  exact ⟨hregistry, hnow, fun label t ht => (htickets label t ht).1,
    fun label t ht => (htickets label t ht).2⟩

/-- What has been told of is forgotten. -/
theorem handOver (h : Mirrors key ρ s s') :
    Mirrors key ρ { s with finished := [] } { s' with finished := [] } :=
  ⟨h.registry, h.now, h.calls, h.recent⟩

/-- **Step theorem.**  An event that concerns the key happens in the mirror in the same way, and
tells there what it tells of the key; any other is not seen in the mirror. -/
theorem happen (h : Mirrors key ρ s s') (e : Event) :
    (s.concerns key e = true → ∃ ρ', Mirrors key ρ' (s.happen e).1 (s'.happen e).1 ∧
        (s'.happen e).2 = (s.happen e).2.about key) ∧
      (s.concerns key e = false → Mirrors key ρ (s.happen e).1 s') := by
  cases e with
  | step op =>
      refine ⟨fun hown => ?_, fun hother => ?_⟩
      · obtain ⟨ρ', hsame⟩ := h.handOver.step_own rfl hown
        refine ⟨ρ', hsame.mirrors, ?_⟩
        simp only [BreakerSession.happen, Told.about, hsame.reply, hsame.finished]
      · have hforgets : Mirrors key ρ { s with finished := [] } s' :=
          ⟨h.registry, h.now, h.calls, h.recent⟩
        exact hforgets.step_other hother
  | pass ms =>
      refine ⟨fun _ => ⟨ρ, ?_, rfl⟩, nofun⟩
      exact ⟨h.registry, congrArg (· + ms) h.now, h.calls, h.recent⟩
  | ring k nth timer =>
      have hhandles : Handles (· = k) s.registry (s.registry.ring s.now k nth timer) :=
        .ring h.registry.wellFormed s.now nth timer rfl
      refine ⟨fun hown => ?_, fun hother => ?_⟩
      · obtain rfl := beq_iff_eq.mp hown
        have hring := h.registry.ring s.now nth timer
        rw [← h.now] at hring
        refine ⟨ρ, h.handOver.of_handles ?_ h.now rfl hhandles, rfl⟩
        simpa [BreakerSession.happen, h.now] using hring
      · have hk : ¬key = k := fun heq => by simp [concerns, heq] at hother
        have hregistry := h.registry.handles hhandles hk
        exact h.of_handles hregistry h.now rfl hhandles

/-- **Run theorem.**  What a run tells of the key is what is told in the mirror when only the events
happen there that concern the key. -/
theorem run (h : Mirrors key ρ s s') (events : List Event) :
    s.toldOf key events = s'.told (s.concerning key events) ∧
      ∃ ρ', Mirrors key ρ' (s.run events) (s'.run (s.concerning key events)) := by
  induction events generalizing s s' ρ with
  | nil => exact ⟨rfl, ρ, h⟩
  | cons e rest ih =>
      obtain ⟨hown, hother⟩ := h.happen e
      cases hconcerns : s.concerns key e with
      | true =>
          obtain ⟨ρ', hmirrors, htold⟩ := hown hconcerns
          obtain ⟨hlater, hrun⟩ := ih hmirrors
          simp only [toldOf, concerning, hconcerns, if_true, told, htold, hlater]
          exact ⟨trivial, hrun⟩
      | false =>
          obtain ⟨hlater, hrun⟩ := ih (hother hconcerns)
          simp only [toldOf, concerning, hconcerns]
          exact ⟨hlater, hrun⟩

/-- What is held of the key is held in the mirror. -/
theorem held_eq (h : Mirrors key ρ s s') : s'.held key = s.held key := by
  unfold held
  rw [h.registry.ofKey_eq, h.registry.metersOf_eq, List.map_map]
  rfl

end Mirrors

/-- **Isolation.**  Whatever happens to the breakers of a registry, in whatever order: all that is
told of a key, and all that is held of it in the end, is the same when only those events happen, at
the same times, that concern the key.  The key is configured as it was when it was first used, or by
the default, until all keys are forgotten. -/
theorem keys_apart (config : BreakerConfig) (timersEnabled : Bool) (key : String)
    (events : List Event) :
    let s := opened config timersEnabled
    s.toldOf key events = s.told (s.concerning key events) ∧
      (s.run events).held key = (s.run (s.concerning key events)).held key ∧
      ((s.run events).registry.find? key).map (·.breaker.config) =
        configAfter config key events := by
  intro s
  have hmirrors := Mirrors.opened key config timersEnabled
  obtain ⟨htold, ρ, hrun⟩ := hmirrors.run events
  obtain ⟨-, hconfig⟩ := run_config hmirrors.registry.wellFormed key events
  exact ⟨htold, hrun.held_eq.symm, hconfig⟩

end BreakerSession

end InferenceRouting
