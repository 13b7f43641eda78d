import InferenceRouting.Breaker.Registry
import InferenceRouting.Proofs.Breaker.Window
import InferenceRouting.Proofs.Keyed
import Mathlib.Data.List.Forall2

/-!
# The breakers of a registry

A key leads to one breaker at most, and would lead to a new one at its first use (`breakerFor`); the
others have lost their key and live on for the calls under way (`retired`).  Two things can be said
of what happens to all of them together.

* Admissions, timers and ends of calls without a verdict leave every breaker `Unjudged`: what it has
  counted of the endpoint stays.
* A call that ends with a verdict is `Judged`: the verdict reaches the breaker of one key, once, and
  all others are unjudged.

The numbers of the entries are distinct in every registry that is used through its operations
(`Reachable`), which is what keeps a verdict from reaching a second breaker.
-/

namespace InferenceRouting

namespace Breaker

variable {b c d : Breaker} {a : Admission} {now : Nat}

/-- What a breaker has counted of the endpoint, with its name and its configuration. -/
def ledger (b : Breaker) : (String × BreakerConfig) × List Nat × Nat × Option Nat × Option Nat :=
  ((b.name, b.config), b.failures, b.totalFailures, b.lastFailure, b.lastSuccess)

/-- No verdict has reached the breaker: its ledger is the same, and the circuit is where it was, or
its cool-down is over. -/
structure Unjudged (b c : Breaker) : Prop where
  ledger : c.ledger = b.ledger
  state : c.state = b.state ∨ (b.state = .open ∧ c.state = .halfOpen)
  successes : c.halfOpenSuccesses = b.halfOpenSuccesses ∨
    (b.state = .open ∧ c.halfOpenSuccesses = 0)

namespace Unjudged

theorem refl (b : Breaker) : b.Unjudged b :=
  ⟨rfl, .inl rfl, .inl rfl⟩

theorem trans (h : b.Unjudged c) (h' : c.Unjudged d) : b.Unjudged d := by
  have hopen : c.state = .open → b.state = .open := by
    intro hc
    rcases h.state with hs | ⟨hs, -⟩
    · exact hs ▸ hc
    · exact hs
  refine ⟨h'.ledger.trans h.ledger, ?_, ?_⟩
  · rcases h'.state with hs | ⟨hc, hs⟩
    · exact hs ▸ h.state
    · exact .inr ⟨hopen hc, hs⟩
  · rcases h'.successes with hs | ⟨hc, hs⟩
    · exact hs ▸ h.successes
    · exact .inr ⟨hopen hc, hs⟩

/-- What is published, and who is under way, is no verdict. -/
theorem same (h : (c.ledger, c.state, c.halfOpenSuccesses) =
    (b.ledger, b.state, b.halfOpenSuccesses)) : b.Unjudged c := by
  simp only [Prod.mk.injEq] at h
  exact ⟨h.1, .inl h.2.1, .inl h.2.2⟩

theorem name_eq (h : b.Unjudged c) : c.name = b.name :=
  congrArg (·.1.1) h.ledger

theorem totalFailures_eq (h : b.Unjudged c) : c.totalFailures = b.totalFailures :=
  congrArg (·.2.2.1) h.ledger

/-- The end of the cool-down is no verdict. -/
theorem toHalfOpen (h : b.state = .open) : b.Unjudged b.toHalfOpen := by
  rw [toHalfOpen_eq]
  exact ⟨rfl, .inr ⟨h, rfl⟩, .inr ⟨h, rfl⟩⟩

theorem refresh (b : Breaker) (now : Nat) : b.Unjudged (b.refresh now) := by
  by_cases h : b.Overdue now
  · rw [refresh_of_overdue h]
    exact toHalfOpen h.1
  · rw [refresh_of_not_overdue h]
    exact refl b

/-- To ask for a call is no verdict, whatever the answer. -/
theorem enter (b : Breaker) (now : Nat) : b.Unjudged (b.enter now).1 := by
  have hcount : b.Unjudged b.countRequest := same rfl
  refine (hcount.trans (refresh b.countRequest now)).trans ?_
  rw [enter_eq]
  unfold judge
  split
  · exact refl _
  · exact same rfl
  · split <;> exact same rfl

/-- Going away is no verdict. -/
theorem abandon (b : Breaker) (a : Admission) : b.Unjudged (b.abandon a) := by
  obtain ⟨n, hrelease⟩ := releaseProbe_eq b a
  unfold Breaker.abandon
  rw [hrelease]
  exact same rfl

theorem fireTimer (b : Breaker) (generation : Nat) : b.Unjudged (b.fireTimer generation) := by
  unfold Breaker.fireTimer
  dsimp only
  split
  · rename_i h
    rw [toHalfOpen_eq]
    exact ⟨rfl, .inr ⟨h.1, rfl⟩, .inr ⟨h.1, rfl⟩⟩
  · exact same rfl

/-- The time that passes is no verdict. -/
theorem fireDue (b : Breaker) (now : Nat) : b.Unjudged (b.fireDue now) := by
  have hfold : ∀ (timers : List ResetTimer) (c : Breaker), b.Unjudged c →
      b.Unjudged (timers.foldl (fun b t => b.fireTimer t.generation) c) := by
    intro timers
    induction timers with
    | nil => exact fun _ h => h
    | cons t rest ih => exact fun c h => ih _ (h.trans (fireTimer c t.generation))
  exact hfold _ b (refl b)

end Unjudged

/-- The end of a call with a failure is counted once. -/
theorem totalFailures_settle (b : Breaker) (now : Nat) (a : Admission) :
    (b.settle now a .failure).totalFailures = b.totalFailures + 1 := by
  have hopen : ∀ c : Breaker, (c.toOpen now).totalFailures = c.totalFailures := by
    intro c
    rw [toOpen_eq]
  have hreact : ∀ c : Breaker, (c.react now).totalFailures = c.totalFailures := by
    intro c
    unfold react
    split
    · split
      · exact hopen c
      · rfl
    · exact hopen c
    · rfl
  obtain ⟨n, hrelease⟩ := releaseProbe_eq b a
  calc (b.settle now a .failure).totalFailures
      = (((b.releaseProbe a).countFailure now).react now).totalFailures := rfl
    _ = (b.releaseProbe a).totalFailures + 1 := hreact _
    _ = b.totalFailures + 1 := by rw [hrelease]

/-- A breaker that refuses a call tells that its circuit is open. -/
theorem circuitOpen_of_enter {e : RoutingError} (h : (b.enter now).2 = .error e) :
    ∃ t, e = .circuitOpen b.name t := by
  have hname : (b.countRequest.refresh now).name = b.name :=
    (Unjudged.refresh b.countRequest now).name_eq
  rw [enter_eq] at h
  unfold judge at h
  split at h
  · cases h
  · cases h
    exact ⟨_, by rw [hname]⟩
  · split at h <;> cases h
    exact ⟨_, by rw [hname]⟩

end Breaker

namespace Registry

variable {r s t : Registry} {key k : String} {id n now : Nat} {e : BreakerEntry}

/-- Asks the breaker of a key, made if need be, for permission for a call. -/
def ask (r : Registry) (key : String) (now : Nat) :
    Registry × Except RoutingError BreakerTicket :=
  (r.getOrCreate key none).1.enter (r.getOrCreate key none).2 now

/-- The breaker of a key, or the one that would be made for it. -/
def breakerFor (r : Registry) (key : String) : Breaker :=
  ((r.find? key).map (·.breaker)).getD (Breaker.new key r.config r.timersEnabled)

/-- The breakers that no key leads to any more. -/
def retired (r : Registry) : List Breaker :=
  (r.entries.filter fun e => !e.registered).map (·.breaker)

/-- A key leads to the entry with a number. -/
def Leads (r : Registry) (key : String) (id : Nat) : Prop :=
  ∃ e, r.find? key = some e ∧ e.id = id

/-- No verdict has reached any breaker. -/
structure Unjudged (r s : Registry) : Prop where
  keyed : ∀ key, (r.breakerFor key).Unjudged (s.breakerFor key)
  retired : List.Forall₂ Breaker.Unjudged r.retired s.retired
  leads : ∀ key id, r.Leads key id → s.Leads key id

/-- The breaker of a key has admitted a call this way. -/
def Admits (r : Registry) (key : String) (a : Admission) : Prop :=
  ∃ b t, (r.breakerFor key).Unjudged b ∧ (b.enter t).2 = .ok a

/-- The verdict on one admitted call has reached the breaker of a key, and none any other. -/
structure Judged (r s : Registry) (key : String) (now : Nat) (a : Admission) (v : Verdict) :
    Prop where
  judged : ∃ b, (r.breakerFor key).Unjudged b ∧ s.breakerFor key = b.settle now a v
  others : ∀ k, k ≠ key → (r.breakerFor k).Unjudged (s.breakerFor k)
  retired : List.Forall₂ Breaker.Unjudged r.retired s.retired
  leads : ∀ key id, r.Leads key id → s.Leads key id

/-- What the breakers hear of a call through the breaker of a key that ends with a verdict: one
verdict on one admitted call, or nothing. -/
def Heard (r s : Registry) (key : String) (now : Nat) : Verdict → Prop
  | .success => ∃ a, r.Admits key a ∧ r.Judged s key now a .success
  | .failure => ∃ a, r.Admits key a ∧ r.Judged s key now a .failure
  | .neutral => r.Unjudged s

/-- The numbers of the entries are distinct, and an entry without a key has a call under way. -/
structure WellFormed (r : Registry) : Prop where
  distinct : (r.entries.map (·.id)).Nodup
  recent : ∀ e ∈ r.entries, e.id < r.nextId
  busy : ∀ e ∈ r.entries, e.registered = true ∨ e.calls ≠ 0

/-- No verdict has been given so far. -/
structure Quiet (r s : Registry) : Prop where
  wellFormed : s.WellFormed
  unjudged : r.Unjudged s

/-- No verdict has been given so far, and a call is under way through the breaker of a key. -/
structure Pending (r s : Registry) (key : String) (t : BreakerTicket) : Prop extends
    Quiet r s where
  leads : s.Leads key t.entry
  admits : r.Admits key t.admission

/-- The registries that come of the operations: all others are made of these. -/
inductive Reachable : Registry → Prop
  | new (config : BreakerConfig) (timersEnabled : Bool) : Reachable { config, timersEnabled }
  | getOrCreate {r : Registry} (h : Reachable r) (key : String) (config : Option BreakerConfig) :
      Reachable (r.getOrCreate key config).1
  | modify {r : Registry} {α : Type} (h : Reachable r) (id : Nat) (f : Breaker → Breaker × α) :
      Reachable (r.modify id f).1
  | countCalls {r : Registry} (h : Reachable r) (id : Nat) (f : Nat → Nat) :
      Reachable (r.countCalls id f)
  | clear {r : Registry} (h : Reachable r) : Reachable r.clear
  | disableTimers {r : Registry} (h : Reachable r) : Reachable r.disableTimers

/-- The breakers of both registries are the same, under the same keys. -/
structure Same (r s : Registry) : Prop where
  breakerFor : ∀ key, s.breakerFor key = r.breakerFor key
  retired : s.retired = r.retired
  leads : ∀ key id, r.Leads key id → s.Leads key id

/-- One breaker has been replaced: that of an entry. -/
structure Replaces (r s : Registry) (e : BreakerEntry) (b : Breaker) : Prop where
  settings : (s.config, s.timersEnabled) = (r.config, r.timersEnabled)
  split : ∃ pre post, r.entries = pre ++ e :: post ∧ (∀ y ∈ pre ++ post, y.id ≠ e.id) ∧
    s.entries = pre ++ { e with breaker := b } :: post

namespace WellFormed

/-- A registry stays well formed as long as its entries keep all but their breakers. -/
theorem of_map (h : r.WellFormed) {g : BreakerEntry → BreakerEntry}
    (hg : ∀ e, ((g e).id, (g e).registered, (g e).calls) = (e.id, e.registered, e.calls))
    (hentries : s.entries = r.entries.map g) (hnext : s.nextId = r.nextId) : s.WellFormed := by
  simp only [Prod.mk.injEq] at hg
  have hids : s.entries.map (·.id) = r.entries.map (·.id) := by
    rw [hentries, List.map_map]
    exact List.map_congr_left fun e _ => (hg e).1
  refine ⟨hids ▸ h.distinct, fun e he => ?_, fun e he => ?_⟩
  · rw [hentries] at he
    obtain ⟨x, hx, rfl⟩ := List.mem_map.mp he
    rw [(hg x).1, hnext]
    exact h.recent x hx
  · rw [hentries] at he
    obtain ⟨x, hx, rfl⟩ := List.mem_map.mp he
    rw [(hg x).2.1, (hg x).2.2]
    exact h.busy x hx

theorem getOrCreate (h : r.WellFormed) (key : String) (config : Option BreakerConfig) :
    (r.getOrCreate key config).1.WellFormed := by
  unfold Registry.getOrCreate
  split
  · exact h
  · refine ⟨?_, ?_, ?_⟩
    · simp only [List.map_append, List.map_cons, List.map_nil]
      refine List.nodup_append.mpr ⟨h.distinct, by simp, ?_⟩
      intro m hm n hn heq
      obtain ⟨e, he, rfl⟩ := List.mem_map.mp hm
      have hlt := h.recent e he
      simp only [List.mem_singleton] at hn
      omega
    · intro e he
      rcases List.mem_append.mp he with hold | hnew
      · exact Nat.lt_succ_of_lt (h.recent e hold)
      · obtain rfl := List.mem_singleton.mp hnew
        exact Nat.lt_succ_self _
    · intro e he
      rcases List.mem_append.mp he with hold | hnew
      · exact h.busy e hold
      · obtain rfl := List.mem_singleton.mp hnew
        exact .inl rfl

theorem modify {α : Type} (h : r.WellFormed) (id : Nat) (f : Breaker → Breaker × α) :
    (r.modify id f).1.WellFormed := by
  unfold Registry.modify
  split
  · exact h
  · exact h.of_map (fun e => by dsimp only; split <;> rfl) rfl rfl

theorem countCalls (h : r.WellFormed) (id : Nat) (f : Nat → Nat) :
    (r.countCalls id f).WellFormed := by
  let g : BreakerEntry → BreakerEntry := fun e =>
    if e.id = id then { e with calls := f e.calls } else e
  have hg : ∀ e, (g e).id = e.id := fun e => by simp only [g]; split <;> rfl
  have hmem : ∀ e ∈ (r.countCalls id f).entries, ∃ x ∈ r.entries, g x = e ∧
      (e.registered || e.calls != 0) = true := by
    intro e he
    obtain ⟨hmap, hkept⟩ := List.mem_filter.mp he
    obtain ⟨x, hx, hxe⟩ := List.mem_map.mp hmap
    exact ⟨x, hx, hxe, hkept⟩
  refine ⟨?_, fun e he => ?_, fun e he => ?_⟩
  · have hids : (r.entries.map g).map (·.id) = r.entries.map (·.id) := by
      rw [List.map_map]
      exact List.map_congr_left fun e _ => hg e
    exact ((List.filter_sublist).map _).nodup (hids ▸ h.distinct)
  · obtain ⟨x, hx, rfl, -⟩ := hmem e he
    rw [hg x]
    exact h.recent x hx
  · obtain ⟨x, -, -, hkept⟩ := hmem e he
    simpa using hkept

theorem clear (h : r.WellFormed) : r.clear.WellFormed := by
  have hmem : ∀ e ∈ r.clear.entries, ∃ x ∈ r.entries, x.id = e.id ∧ e.calls ≠ 0 := by
    intro e he
    obtain ⟨x, hx, rfl⟩ := List.mem_map.mp he
    obtain ⟨hold, hcalls⟩ := List.mem_filter.mp hx
    exact ⟨x, hold, rfl, by simpa using hcalls⟩
  refine ⟨?_, fun e he => ?_, fun e he => ?_⟩
  · have hids : r.clear.entries.map (·.id) = (r.entries.filter (·.calls ≠ 0)).map (·.id) := by
      simp only [Registry.clear, List.map_map]
      exact List.map_congr_left fun e _ => rfl
    rw [hids]
    exact ((List.filter_sublist).map _).nodup h.distinct
  · obtain ⟨x, hx, hid, -⟩ := hmem e he
    exact hid ▸ h.recent x hx
  · obtain ⟨-, -, -, hcalls⟩ := hmem e he
    exact .inr hcalls

end WellFormed

/-- Whatever is done with a registry, it is well formed. -/
theorem Reachable.wellFormed (h : r.Reachable) : r.WellFormed := by
  induction h with
  | new config timersEnabled => exact ⟨by simp, by simp, by simp⟩
  | getOrCreate _ key config ih => exact ih.getOrCreate key config
  | modify _ id f ih => exact ih.modify id f
  | countCalls _ id f ih => exact ih.countCalls id f
  | clear _ ih => exact ih.clear
  | disableTimers _ ih =>
      exact ih.of_map (g := fun e => { e with breaker := e.breaker.disableTimers }) (fun _ => rfl)
        rfl rfl

/-- The breaker of an entry, with what is published under its name. -/
def loaded (r : Registry) (e : BreakerEntry) : Breaker :=
  { e.breaker with meters := r.metersOf e.breaker.name }

theorem loaded_unjudged (r : Registry) (e : BreakerEntry) : e.breaker.Unjudged (r.loaded e) :=
  .same rfl

/-- The entry a key leads to is in the registry, under its number and its name. -/
theorem of_find? (h : r.find? key = some e) :
    e ∈ r.entries ∧ e.registered = true ∧ e.breaker.name = key := by
  have hfound := List.find?_some h
  simp only [Bool.and_eq_true, beq_iff_eq] at hfound
  exact ⟨List.mem_of_find?_eq_some h, hfound.1, hfound.2⟩

/-- An entry is found by its number. -/
theorem WellFormed.entry?_eq (h : r.WellFormed) (he : e ∈ r.entries) : r.entry? e.id = some e := by
  obtain ⟨pre, post, hsplit, hne⟩ := Keyed.exists_split h.distinct he
  unfold entry?
  rw [hsplit]
  exact Keyed.find?_eq hne

/-- To change the breaker of an entry is to replace it. -/
theorem WellFormed.modify_replaces {α : Type} (h : r.WellFormed) (he : r.entry? id = some e)
    (f : Breaker → Breaker × α) :
    r.Replaces (r.modify id f).1 e (f (r.loaded e)).1 ∧
      (r.modify id f).2 = some (f (r.loaded e)).2 := by
  obtain ⟨hmem, rfl⟩ := Keyed.of_find?_eq_some he
  obtain ⟨pre, post, hsplit, hne⟩ := Keyed.exists_split h.distinct hmem
  unfold Registry.modify
  rw [he]
  refine ⟨⟨rfl, pre, post, hsplit, hne, ?_⟩, rfl⟩
  simp only [setMeters, hsplit]
  exact Keyed.map_ite (fun x => { x with breaker := (f (r.loaded e)).1 }) hne

namespace Replaces

variable {b c : Breaker}

/-- A key leads to the same entry as before, with the breaker that has been put there. -/
theorem find? (h : r.Replaces s e b) (hname : b.name = e.breaker.name) (k : String) :
    (r.find? k = some e → s.find? k = some { e with breaker := b }) ∧
      (r.find? k ≠ some e → s.find? k = r.find? k) := by
  obtain ⟨pre, post, hr, hne, hs⟩ := h.split
  let p : BreakerEntry → Bool := fun e => e.registered && e.breaker.name == k
  have hp : p { e with breaker := b } = p e := by simp only [p, hname]
  have hpre : pre.find? p ≠ some e := fun hfound =>
    hne e (List.mem_append_left _ (List.mem_of_find?_eq_some hfound)) rfl
  have hpost : post.find? p ≠ some e := fun hfound =>
    hne e (List.mem_append_right _ (List.mem_of_find?_eq_some hfound)) rfl
  have hfind : r.find? k = (pre.find? p).or ((e :: post).find? p) := by
    simp only [Registry.find?, hr, List.find?_append, p]
  have hfind' : s.find? k = (pre.find? p).or (({ e with breaker := b } :: post).find? p) := by
    simp only [Registry.find?, hs, List.find?_append, p]
  rw [hfind, hfind']
  cases hfirst : pre.find? p with
  | some x =>
      have hother : some x ≠ some e := hfirst ▸ hpre
      exact ⟨fun hx => absurd hx hother, fun _ => rfl⟩
  | none =>
      by_cases hpe : p e = true
      · rw [List.find?_cons_of_pos hpe, List.find?_cons_of_pos (hp.trans hpe)]
        simp
      · rw [List.find?_cons_of_neg hpe, List.find?_cons_of_neg (hp ▸ hpe)]
        exact ⟨fun hx => absurd hx hpost, fun _ => rfl⟩

/-- What would be made for a key is the same. -/
theorem new_eq (h : r.Replaces s e b) (k : String) :
    Breaker.new k s.config s.timersEnabled = Breaker.new k r.config r.timersEnabled := by
  obtain ⟨hconfig, htimers⟩ := Prod.mk.inj h.settings
  rw [hconfig, htimers]

/-- The breaker of the key that leads to the entry. -/
theorem breakerFor_of_eq (h : r.Replaces s e b) (hname : b.name = e.breaker.name)
    (hk : r.find? k = some e) : r.breakerFor k = e.breaker ∧ s.breakerFor k = b := by
  unfold Registry.breakerFor
  rw [hk, (h.find? hname k).1 hk]
  exact ⟨rfl, rfl⟩

/-- The breakers of all other keys. -/
theorem breakerFor_of_ne (h : r.Replaces s e b) (hname : b.name = e.breaker.name)
    (hk : r.find? k ≠ some e) : s.breakerFor k = r.breakerFor k := by
  unfold Registry.breakerFor
  rw [(h.find? hname k).2 hk, h.new_eq]

/-- The breakers without a key are the same, up to one that has been replaced. -/
theorem retired (h : r.Replaces s e b)
    (hb : e.registered = true ∨ e.breaker.Unjudged b) :
    List.Forall₂ Breaker.Unjudged r.retired s.retired := by
  obtain ⟨pre, post, hr, -, hs⟩ := h.split
  have hsame : ∀ l : List Breaker, List.Forall₂ Breaker.Unjudged l l :=
    fun l => List.forall₂_same.mpr fun b _ => .refl b
  unfold Registry.retired
  rw [hr, hs]
  cases hregistered : e.registered with
  | true =>
      simp only [List.filter_append, List.filter_cons, hregistered]
      exact hsame _
  | false =>
      have hquiet : e.breaker.Unjudged b := hb.resolve_left (by simp [hregistered])
      simp only [List.filter_append, List.filter_cons, hregistered, List.map_append]
      exact List.rel_append (hsame _) (.cons hquiet (hsame _))

/-- The keys lead where they led. -/
theorem leads (h : r.Replaces s e b) (hname : b.name = e.breaker.name) (k : String) (n : Nat)
    (hlead : r.Leads k n) : s.Leads k n := by
  obtain ⟨x, hx, rfl⟩ := hlead
  by_cases hk : r.find? k = some e
  · have hxe : x = e := Option.some.inj (hx.symm.trans hk)
    exact ⟨_, (h.find? hname k).1 hk, by rw [hxe]⟩
  · exact ⟨x, ((h.find? hname k).2 hk).trans hx, rfl⟩

/-- A breaker that no verdict has reached may replace another. -/
theorem unjudged (h : r.Replaces s e b) (hb : e.breaker.Unjudged b) : r.Unjudged s where
  keyed k := by
    by_cases hk : r.find? k = some e
    · obtain ⟨hr, hs⟩ := h.breakerFor_of_eq hb.name_eq hk
      rw [hr, hs]
      exact hb
    · rw [h.breakerFor_of_ne hb.name_eq hk]
      exact .refl _
  retired := h.retired (.inr hb)
  leads := h.leads hb.name_eq

/-- A breaker that a verdict has reached replaces that of its key. -/
theorem judged {a : Admission} {v : Verdict} (h : r.Replaces s e (c.settle now a v))
    (hkey : r.find? key = some e) (hc : e.breaker.Unjudged c) : r.Judged s key now a v := by
  obtain ⟨-, hregistered, hname⟩ := of_find? hkey
  have hsettle : (c.settle now a v).name = e.breaker.name :=
    (Breaker.Turns.settle c now a v).advances.name.trans hc.name_eq
  obtain ⟨hr, hs⟩ := h.breakerFor_of_eq hsettle hkey
  refine ⟨⟨c, hr ▸ hc, hs⟩, fun k hk => ?_, h.retired (.inl hregistered), h.leads hsettle⟩
  have hother : r.find? k ≠ some e := fun hfound =>
    hk ((of_find? hfound).2.2.symm.trans hname)
  rw [h.breakerFor_of_ne hsettle hother]
  exact .refl _

end Replaces

theorem Unjudged.refl (r : Registry) : r.Unjudged r :=
  ⟨fun _ => .refl _, List.forall₂_same.mpr fun b _ => .refl b, fun _ _ h => h⟩

theorem Same.unjudged (h : r.Same s) : r.Unjudged s where
  keyed k := h.breakerFor k ▸ .refl _
  retired := h.retired ▸ List.forall₂_same.mpr fun b _ => .refl b
  leads := h.leads

/-- Breakers without a key go through what happens one step after the other. -/
theorem forall₂_unjudged_trans {l m o : List Breaker} (h : List.Forall₂ Breaker.Unjudged l m)
    (h' : List.Forall₂ Breaker.Unjudged m o) : List.Forall₂ Breaker.Unjudged l o := by
  induction h generalizing o with
  | nil => exact h'
  | cons hb _ ih =>
      cases h' with
      | cons hb' hrest => exact .cons (hb.trans hb') (ih hrest)

theorem Unjudged.trans (h : r.Unjudged s) (h' : s.Unjudged t) : r.Unjudged t where
  keyed k := (h.keyed k).trans (h'.keyed k)
  retired := forall₂_unjudged_trans h.retired h'.retired
  leads k n hlead := h'.leads k n (h.leads k n hlead)

/-- What happens before an admission may be added to it. -/
theorem Admits.after {a : Admission} (h : r.Unjudged s) (h' : s.Admits key a) : r.Admits key a := by
  obtain ⟨b, t, hb, hadmission⟩ := h'
  exact ⟨b, t, (h.keyed key).trans hb, hadmission⟩

namespace Judged

variable {a : Admission} {v : Verdict}

/-- What happens before a verdict may be added to it. -/
theorem after (h : r.Unjudged s) (h' : s.Judged t key now a v) : r.Judged t key now a v where
  judged := by
    obtain ⟨b, hb, hsettle⟩ := h'.judged
    exact ⟨b, (h.keyed key).trans hb, hsettle⟩
  others k hk := (h.keyed k).trans (h'.others k hk)
  retired := forall₂_unjudged_trans h.retired h'.retired
  leads k n hlead := h'.leads k n (h.leads k n hlead)

theorem same (h : r.Judged s key now a v) (h' : s.Same t) : r.Judged t key now a v where
  judged := by
    obtain ⟨b, hb, hsettle⟩ := h.judged
    exact ⟨b, hb, (h'.breakerFor key).trans hsettle⟩
  others k hk := h'.breakerFor k ▸ h.others k hk
  retired := h'.retired ▸ h.retired
  leads k n hlead := h'.leads k n (h.leads k n hlead)

end Judged

/-- A breaker that is made is found under its key; all others are found as before. -/
theorem find?_getOrCreate (hnone : r.find? key = none) (config : Option BreakerConfig)
    (k : String) :
    (r.getOrCreate key config).1.find? k = (r.find? k).or (if key = k then
      some ⟨r.nextId, true, 0, Breaker.new key (config.getD r.config) r.timersEnabled⟩
    else none) := by
  have hname : (Breaker.new key (config.getD r.config) r.timersEnabled).name = key := rfl
  unfold getOrCreate
  rw [hnone]
  simp only [Registry.find?, List.find?_append, List.find?_cons, List.find?_nil, hname,
    Bool.true_and]
  by_cases hk : key = k
  · rw [beq_iff_eq.mpr hk, if_pos hk]
  · rw [beq_false_of_ne hk, if_neg hk]

/-- To make a breaker is to make the one that its key would lead to. -/
theorem getOrCreate_same (r : Registry) (key : String) : r.Same (r.getOrCreate key none).1 := by
  cases hfound : r.find? key with
  | some e =>
      have hsame : r.getOrCreate key none = (r, e.id) := by simp [getOrCreate, hfound]
      rw [hsame]
      exact ⟨fun _ => rfl, rfl, fun _ _ h => h⟩
  | none =>
      let b := Breaker.new key r.config r.timersEnabled
      have hmade : (r.getOrCreate key none).1 = { r with
          entries := r.entries ++ [⟨r.nextId, true, 0, b⟩]
          nextId := r.nextId + 1 } := by
        simp [getOrCreate, hfound, b]
      refine ⟨fun k => ?_, ?_, fun k n hlead => ?_⟩
      · unfold breakerFor
        rw [find?_getOrCreate hfound, hmade]
        by_cases hk : key = k
        · subst hk
          simp [hfound]
        · simp [hk]
      · rw [hmade]
        simp [retired]
      · obtain ⟨x, hx, rfl⟩ := hlead
        exact ⟨x, by rw [find?_getOrCreate hfound, hx, Option.some_or], rfl⟩

/-- A key leads to the breaker that has been made for it. -/
theorem getOrCreate_leads (r : Registry) (key : String) (config : Option BreakerConfig) :
    (r.getOrCreate key config).1.Leads key (r.getOrCreate key config).2 := by
  cases hfound : r.find? key with
  | some e =>
      have hsame : r.getOrCreate key config = (r, e.id) := by simp [getOrCreate, hfound]
      rw [hsame]
      exact ⟨e, hfound, rfl⟩
  | none =>
      have hid : (r.getOrCreate key config).2 = r.nextId := by simp [getOrCreate, hfound]
      refine ⟨⟨r.nextId, true, 0, Breaker.new key (config.getD r.config) r.timersEnabled⟩, ?_,
        hid.symm⟩
      rw [find?_getOrCreate hfound, hfound, if_pos rfl, Option.none_or]

/-- Counting calls drops no entry that has its key or calls left. -/
theorem WellFormed.entries_countCalls (h : r.WellFormed) {f : Nat → Nat}
    (hf : ∀ e ∈ r.entries, e.id = id → e.registered = true ∨ f e.calls ≠ 0) :
    (r.countCalls id f).entries =
      r.entries.map fun e => if e.id = id then { e with calls := f e.calls } else e := by
  refine List.filter_eq_self.mpr fun e he => ?_
  obtain ⟨x, hx, rfl⟩ := List.mem_map.mp he
  by_cases hid : x.id = id
  · simpa [hid] using hf x hx hid
  · simpa [hid] using h.busy x hx

/-- Counting calls leaves the breakers alone while the entry has its key or calls left. -/
theorem WellFormed.countCalls_same (h : r.WellFormed) {f : Nat → Nat}
    (hf : ∀ e ∈ r.entries, e.id = id → e.registered = true ∨ f e.calls ≠ 0) :
    r.Same (r.countCalls id f) := by
  let g : BreakerEntry → BreakerEntry := fun e =>
    if e.id = id then { e with calls := f e.calls } else e
  have hg : ∀ e, (g e).id = e.id ∧ (g e).registered = e.registered ∧ (g e).breaker = e.breaker :=
    fun e => by simp only [g]; split <;> exact ⟨rfl, rfl, rfl⟩
  have hentries : (r.countCalls id f).entries = r.entries.map g := h.entries_countCalls hf
  have hfind : ∀ k, (r.countCalls id f).find? k = (r.find? k).map g := by
    intro k
    simp only [find?, hentries, List.find?_map]
    congr 2
    funext e
    simp only [Function.comp_apply, (hg e).2.1, (hg e).2.2]
  refine ⟨fun k => ?_, ?_, fun k n hlead => ?_⟩
  · simp only [breakerFor, hfind]
    cases r.find? k with
    | none => rfl
    | some e => simp [(hg e).2.2]
  · simp only [retired, hentries, List.filter_map, List.map_map]
    have hpred : (fun e : BreakerEntry => !e.registered) ∘ g = fun e => !e.registered := by
      funext e
      simp only [Function.comp_apply, (hg e).2.1]
    rw [hpred]
    exact List.map_congr_left fun e _ => (hg e).2.2
  · obtain ⟨x, hx, rfl⟩ := hlead
    exact ⟨g x, by rw [hfind, hx]; rfl, (hg x).1⟩

/-- **Admission.**  To ask for a call reaches no breaker with a verdict. -/
theorem WellFormed.enter (h : r.WellFormed) (id now : Nat) :
    (r.enter id now).1.WellFormed ∧ r.Unjudged (r.enter id now).1 := by
  unfold Registry.enter
  cases he : r.entry? id with
  | none =>
      have hnone : r.modify id (·.enter now) = (r, none) := by simp [Registry.modify, he]
      rw [hnone]
      exact ⟨h, .refl r⟩
  | some e =>
      obtain ⟨hreplaces, -⟩ := h.modify_replaces he (·.enter now)
      have hwell := h.modify id (·.enter now)
      have hunjudged := hreplaces.unjudged ((r.loaded_unjudged e).trans (.enter _ now))
      generalize r.modify id (·.enter now) = changed at hwell hunjudged
      obtain ⟨s, answer⟩ := changed
      cases answer with
      | none => exact ⟨hwell, hunjudged⟩
      | some permission =>
          cases permission with
          | ok a =>
              have hsame : s.Same (s.countCalls id (· + 1)) :=
                hwell.countCalls_same fun e _ _ => .inr (Nat.succ_ne_zero e.calls)
              exact ⟨hwell.countCalls id _, hunjudged.trans hsame.unjudged⟩
          | error e => exact ⟨hwell, hunjudged⟩

/-- The answer of a registry is that of the breaker that is asked. -/
theorem enter_answer (he : r.entry? id = some e) (now : Nat) :
    (r.enter id now).2 = ((r.loaded e).enter now).2.map (BreakerTicket.mk id) := by
  have hanswer : (r.modify id (·.enter now)).2 = some ((r.loaded e).enter now).2 := by
    unfold modify
    rw [he]
    rfl
  unfold Registry.enter
  generalize r.modify id (·.enter now) = changed at hanswer
  obtain ⟨s, answer⟩ := changed
  obtain rfl : answer = _ := hanswer
  cases ((r.loaded e).enter now).2 <;> rfl

/-- A permission is for the entry that was asked, and from the breaker of its key. -/
theorem WellFormed.admits_of_enter (h : r.WellFormed) {ticket : BreakerTicket}
    (hlead : r.Leads key id) (hticket : (r.enter id now).2 = .ok ticket) :
    ticket.entry = id ∧ r.Admits key ticket.admission := by
  obtain ⟨e, hkey, rfl⟩ := hlead
  have hbreaker : r.breakerFor key = e.breaker := by
    unfold breakerFor
    rw [hkey]
    rfl
  rw [enter_answer (h.entry?_eq (of_find? hkey).1)] at hticket
  cases hpermission : ((r.loaded e).enter now).2 with
  | ok a =>
      rw [hpermission] at hticket
      cases hticket
      exact ⟨rfl, r.loaded e, now, hbreaker ▸ r.loaded_unjudged e, hpermission⟩
  | error err =>
      rw [hpermission] at hticket
      cases hticket

/-- A refusal of a breaker that is there tells that its circuit is open. -/
theorem circuitOpen_of_enter {err : RoutingError} (h : (r.entry? id).isSome)
    (herror : (r.enter id now).2 = .error err) : ∃ name t, err = .circuitOpen name t := by
  obtain ⟨e, he⟩ := Option.isSome_iff_exists.mp h
  rw [enter_answer he] at herror
  cases hpermission : ((r.loaded e).enter now).2 with
  | ok a =>
      rw [hpermission] at herror
      cases herror
  | error d =>
      rw [hpermission] at herror
      cases herror
      obtain ⟨t, rfl⟩ := Breaker.circuitOpen_of_enter hpermission
      exact ⟨_, t, rfl⟩

/-- The breaker of a key is there once it has been made. -/
theorem isSome_entry?_of_leads (h : r.Leads key id) : (r.entry? id).isSome := by
  obtain ⟨e, he, rfl⟩ := h
  exact List.find?_isSome.mpr ⟨e, (of_find? he).1, by simp⟩

/-- **Verdicts.**  The end of a call reaches the breaker of its key with the verdict. -/
theorem WellFormed.settle (h : r.WellFormed) {t : BreakerTicket} (hlead : r.Leads key t.entry)
    (now : Nat) (v : Verdict) :
    (r.settle now t v).WellFormed ∧ r.Judged (r.settle now t v) key now t.admission v := by
  obtain ⟨e, hkey, hid⟩ := hlead
  obtain ⟨hmem, hregistered, -⟩ := of_find? hkey
  have he : r.entry? t.entry = some e := hid ▸ h.entry?_eq hmem
  have hwell := h.modify t.entry fun b => (b.settle now t.admission v, ())
  obtain ⟨hreplaces, -⟩ := h.modify_replaces he fun b => (b.settle now t.admission v, ())
  have hjudged := hreplaces.judged hkey (r.loaded_unjudged e)
  obtain ⟨pre, post, -, hne, hs⟩ := hreplaces.split
  refine ⟨hwell.countCalls t.entry _, hjudged.same (hwell.countCalls_same fun x hx hxid => .inl ?_)⟩
  rw [hs] at hx
  rcases List.mem_append.mp hx with hx | hx
  · exact absurd (hxid.trans hid.symm) (hne x (List.mem_append_left _ hx))
  · rcases List.mem_cons.mp hx with rfl | hx
    · exact hregistered
    · exact absurd (hxid.trans hid.symm) (hne x (List.mem_append_right _ hx))

/-- A neutral end is no verdict. -/
theorem Judged.unjudged {a : Admission} (h : r.Judged s key now a .neutral) : r.Unjudged s := by
  refine ⟨fun k => ?_, h.retired, h.leads⟩
  by_cases hk : k = key
  · obtain ⟨b, hb, hsettle⟩ := h.judged
    rw [hk, hsettle]
    exact hb.trans (.abandon b a)
  · exact h.others k hk

/-- What the breakers have heard once an admitted call has ended. -/
theorem Judged.heard {a : Admission} {v : Verdict} (h : r.Judged s key now a v)
    (ha : r.Admits key a) : r.Heard s key now v := by
  cases v with
  | success => exact ⟨a, ha, h⟩
  | failure => exact ⟨a, ha, h⟩
  | neutral => exact h.unjudged

/-- A failure is counted once, by the breaker of its key. -/
theorem Judged.totalFailures_eq {a : Admission} (h : r.Judged s key now a .failure) (k : String) :
    (s.breakerFor k).totalFailures =
      (r.breakerFor k).totalFailures + if k = key then 1 else 0 := by
  by_cases hk : k = key
  · obtain ⟨b, hb, hsettle⟩ := h.judged
    rw [hk, hsettle, b.totalFailures_settle now a, hb.totalFailures_eq, if_pos rfl]
  · rw [(h.others k hk).totalFailures_eq, if_neg hk, Nat.add_zero]

/-- The timers that ring are no verdict. -/
theorem WellFormed.fireDue (h : r.WellFormed) (now : Nat) :
    (r.fireDue now).WellFormed ∧ r.Unjudged (r.fireDue now) := by
  have hfold : ∀ (ids : List Nat) (s : Registry), s.WellFormed →
      (ids.foldl (fun r id => r.update id (·.fireDue now)) s).WellFormed ∧
        s.Unjudged (ids.foldl (fun r id => r.update id (·.fireDue now)) s) := by
    intro ids
    induction ids with
    | nil => exact fun s hs => ⟨hs, .refl s⟩
    | cons id rest ih =>
        intro s hs
        have hwell : (s.update id (·.fireDue now)).WellFormed := hs.modify id _
        have hone : s.Unjudged (s.update id (·.fireDue now)) := by
          cases he : s.entry? id with
          | none =>
              have hnone : s.update id (·.fireDue now) = s := by simp [update, Registry.modify, he]
              rw [hnone]
              exact .refl s
          | some e =>
              obtain ⟨hreplaces, -⟩ := hs.modify_replaces he fun b => (b.fireDue now, ())
              exact hreplaces.unjudged ((s.loaded_unjudged e).trans (.fireDue _ now))
        obtain ⟨hlast, hrest⟩ := ih _ hwell
        exact ⟨hlast, hone.trans hrest⟩
  exact hfold _ r h

/-- **Asking.**  The breaker of a key is made if need be; a call that it admits is pending. -/
theorem Quiet.ask (h : r.Quiet s) (key : String) (now : Nat) :
    r.Quiet (s.ask key now).1 ∧
      ∀ ticket, (s.ask key now).2 = .ok ticket → r.Pending (s.ask key now).1 key ticket := by
  have hmade : r.Quiet (s.getOrCreate key none).1 :=
    ⟨h.wellFormed.getOrCreate key none, h.unjudged.trans (s.getOrCreate_same key).unjudged⟩
  have hlead := s.getOrCreate_leads key none
  unfold Registry.ask
  generalize s.getOrCreate key none = made at hmade hlead
  obtain ⟨hwell, hentered⟩ := hmade.wellFormed.enter made.2 now
  have hquiet : r.Quiet (made.1.enter made.2 now).1 := ⟨hwell, hmade.unjudged.trans hentered⟩
  refine ⟨hquiet, fun ticket hticket => ?_⟩
  obtain ⟨hentry, hadmits⟩ := hmade.wellFormed.admits_of_enter hlead hticket
  exact ⟨hquiet, hentered.leads key _ (hentry ▸ hlead), hadmits.after hmade.unjudged⟩

namespace Pending

variable {ticket : BreakerTicket}

/-- A pending call that ends is heard of once. -/
theorem settle (h : r.Pending s key ticket) (now : Nat) (v : Verdict) :
    (s.settle now ticket v).WellFormed ∧ r.Heard (s.settle now ticket v) key now v := by
  obtain ⟨hwell, hjudged⟩ := h.wellFormed.settle h.leads now v
  exact ⟨hwell, (hjudged.after h.unjudged).heard h.admits⟩

/-- Nothing is heard of a pending call that is given up. -/
theorem abandon (h : r.Pending s key ticket) : r.Quiet (s.abandon ticket) := by
  have hneutral : s.abandon ticket = s.settle 0 ticket .neutral := rfl
  obtain ⟨hwell, hheard⟩ := h.settle 0 .neutral
  rw [hneutral]
  exact ⟨hwell, hheard⟩

end Pending

theorem Quiet.fireDue (h : r.Quiet s) (now : Nat) : r.Quiet (s.fireDue now) := by
  obtain ⟨hwell, hunjudged⟩ := h.wellFormed.fireDue now
  exact ⟨hwell, h.unjudged.trans hunjudged⟩

theorem Pending.fireDue {ticket : BreakerTicket} (h : r.Pending s key ticket) (now : Nat) :
    r.Pending (s.fireDue now) key ticket where
  toQuiet := h.toQuiet.fireDue now
  leads := (h.wellFormed.fireDue now).2.leads key ticket.entry h.leads
  admits := h.admits

end Registry

end InferenceRouting
