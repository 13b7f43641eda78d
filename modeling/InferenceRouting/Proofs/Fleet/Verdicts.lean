import InferenceRouting.Proofs.Fleet.Course

/-!
# What a request tells of its outcome

The breakers and the credentials learn from requests.  While a request is under way and no other
one moves (`Alone`), no verdict is given, and the call it may have is pending with the breaker of
its node.  The nodes that reject it hear nothing.  The end of the last attempt is heard by the
breaker of that node (`Informed`), and charged to the credentials (`Account.charge`).

So both are told once: `dispatch_informs_once` lists what they know when a request is over.
-/

namespace InferenceRouting

open Cluster (Node)
open Credential (Rotation Failure)
open Http (Call Endpoint)

/-- The rotation once what is known of a request has been charged to it. -/
def Account.charge (a : Account) (purpose : Purpose) (r : Rotation) : Rotation :=
  match a.result with
  | none => r
  | some result => purpose.charge a.time result r

namespace Fleet

/-- What may happen while no other request moves: timers ring, other callers come to the pool, and
nodes come and go. -/
inductive Alone (id : Nat) : Fleet → Fleet → Prop
  | timers {f : Fleet} (now : Nat) : Alone id f { f with registry := f.registry.fireDue now }
  | onPool {f : Fleet} (now : Nat) {e : PoolEvent Endpoint} (h : e.caller? ≠ some id) :
      Alone id f (f.onPool now e).1
  | nodes {f : Fleet} (http : Http.HttpConfig) (tracker : Cluster.Tracker) :
      Alone id f { f with http, tracker }

/-- What an attempt at a node has told the breakers. -/
inductive Tells (r₀ : Registry) (now id : Nat) (node : Node) :
    Option Encounter → Fleet × Attempt → Prop
  | waits {f : Fleet} {r : Route} (hroute : f.route? id = some r)
      (hpending : r₀.Pending f.registry (nodeKey r.node.id) r.ticket) :
      Tells r₀ now id node none (f, .queued)
  | calls {f : Fleet} {r : Route} {call : Call} (hroute : f.route? id = some r)
      (hpending : r₀.Pending f.registry (nodeKey r.node.id) r.ticket) :
      Tells r₀ now id node (some .called) (f, .calling call)
  | ends {f : Fleet} {met : Encounter} {result : Except RoutingError Json}
      (hwell : f.registry.WellFormed)
      (hheard : r₀.Heard f.registry (nodeKey node.id) now (.ofResult result)) :
      Tells r₀ now id node (some met) (f, .finished result)

/-- What the breakers have heard of a request: nothing while it is under way, and then how it ended,
from the node it visited last. -/
inductive Informed (r₀ : Registry) (id : Nat) : Account → Fleet → Prop
  | notYet {a : Account} {f : Fleet} (hopen : a.result = none) (hquiet : r₀.Quiet f.registry)
      (hroute : ∀ r, f.route? id = some r →
        r₀.Pending f.registry (nodeKey r.node.id) r.ticket) : Informed r₀ id a f
  | once {a : Account} {f : Fleet} {result : Except RoutingError InferenceAnswer} {v : Visit}
      (hresult : a.result = some result) (hlast : a.visits.getLast? = some v)
      (hheard : r₀.Heard f.registry (nodeKey v.node.id) a.time (.ofResult result)) :
      Informed r₀ id a f

/-- Once a request is over, the breakers and the credentials have been told of it once. -/
structure InformedOnce (f₀ f : Fleet) (a : Account) : Prop where
  /-- An answer is a success of the credentials, and of the node that answered. -/
  answered : ∀ answer, a.result = some (.ok answer) →
    f.rotation = f₀.rotation.reportSuccess ∧
      f₀.registry.Heard f.registry (nodeKey answer.nodeId) a.time .success
  /-- An endpoint failure is one of the credentials, and of the node that was visited last. -/
  failed : ∀ e, a.result = some (.error e) → e.countsAsEndpointFailure = true →
    f.rotation = (f₀.rotation.reportFailure a.time (Failure.ofError a.time e)).1 ∧
      ∃ v, a.visits.getLast? = some v ∧
        f₀.registry.Heard f.registry (nodeKey v.node.id) a.time .failure ∧
        ∀ key, (f.registry.breakerFor key).totalFailures =
          (f₀.registry.breakerFor key).totalFailures + if key = nodeKey v.node.id then 1 else 0
  /-- Any other error is no failure of any credential or node. -/
  spared : ∀ e, a.result = some (.error e) → e.countsAsEndpointFailure = false →
    f.rotation = f₀.rotation ∧ f₀.registry.Unjudged f.registry
  /-- A request that is refused before any node is tried leaves everything as it was. -/
  refused : ∀ e, a.result = some (.error e) →
    ((∃ model, e = .noCapacity model) ∨ ∃ t, e = .allCredentialsCooling t) → f = f₀

variable {f g f₀ : Fleet} {now id t₀ : Nat} {node : Node} {rest : List Node} {a : Account}
  {r : Route} {e start : RouteEvent} {purpose : Purpose} {plan : Plan} {met : Option Encounter}
  {r₀ : Registry} {out : Fleet × Attempt}

theorem Alone.elsewhere (h : Alone id f g) : Elsewhere id f g := by
  cases h with
  | timers now => exact .change f.http f.tracker (f.registry.fireDue now) f.rotation
  | onPool now he => exact .onPool now he
  | nodes http tracker => exact .change http tracker f.registry f.rotation

/-! ## The credentials -/

/-- What a step leaves of the rotation is what its account charges to it. -/
theorem Settles.charge_eq {out : Fleet × Progress} (h : Settles purpose now g out)
    (visits : List Visit) (calls : List Call) :
    out.1.rotation = Account.charge ⟨visits, calls, out.2.result?, now⟩ purpose g.rotation := by
  obtain ⟨f, p⟩ := out
  cases p with
  | ended result => exact h.rotation_of_ended rfl
  | _ => exact congrArg Fleet.rotation h

/-- An event may follow a request only by its own purpose and plan. -/
theorem concern_of_follows
    (hroutes : ∀ r ∈ f.routes, r.id = id → r.purpose = purpose ∧ r.plan = plan)
    (he : e.Follows) {p : Purpose} {q : Plan} (hc : f.concern? id e = some (p, q)) :
    p = purpose ∧ q = plan := by
  unfold concern? at hc
  cases hroute : f.route? id with
  | some r =>
      obtain ⟨hmem, hid⟩ := Keyed.of_find?_eq_some hroute
      simp only [hroute, Option.some.injEq, Prod.mk.injEq] at hc
      obtain ⟨rfl, rfl⟩ := hc
      exact hroutes r hmem hid
  | none =>
      rw [hroute] at hc
      cases e with
      | dispatch request => exact he.elim
      | drive pair body => exact he.elim
      | _ => cases hc

/-- A request keeps its purpose and its plan. -/
theorem course_routes (habsent : f₀.Absent id)
    (hstart : f₀.concern? id start = some (purpose, plan))
    (h : Course id (Alone id) f₀ t₀ start a f) :
    ∀ r ∈ f.routes, r.id = id → r.purpose = purpose ∧ r.plan = plan := by
  induction h with
  | begun =>
      obtain ⟨g, hextends, hsettles⟩ := step_settles f₀ t₀ hstart
      intro r hr hid
      rcases hextends.routes r (hsettles.routes_eq ▸ hr) with hold | hnew
      · exact absurd (beq_iff_eq.mpr hid) (List.find?_eq_none.mp habsent.route r hold)
      · exact hnew
  | meanwhile _ _ ho ih => cases ho <;> exact ih
  | @goesOn a f _ _ now e he ih =>
      intro r hr hid
      cases hc : f.concern? id e with
      | none =>
          rw [step_of_concern?_eq_none f now hc] at hr
          exact ih r hr hid
      | some concern =>
          obtain ⟨p, q⟩ := concern
          obtain ⟨rfl, rfl⟩ := concern_of_follows ih he hc
          obtain ⟨g, hextends, hsettles⟩ := step_settles f now hc
          rcases hextends.routes r (hsettles.routes_eq ▸ hr) with hold | hnew
          · exact ih r hold hid
          · exact hnew

/-- **What the credentials are told.**  While a request is alone, the rotation changes by what its
account charges to it. -/
theorem course_charges (habsent : f₀.Absent id)
    (hstart : f₀.concern? id start = some (purpose, plan))
    (h : Course id (Alone id) f₀ t₀ start a f) :
    f.rotation = a.charge purpose f₀.rotation := by
  induction h with
  | begun =>
      obtain ⟨g, hextends, hsettles⟩ := step_settles f₀ t₀ hstart
      exact hextends.rotation ▸ hsettles.charge_eq _ _
  | meanwhile _ _ ho ih => cases ho <;> exact ih
  | @goesOn a f hbefore hopen now e he ih =>
      have hsame : f.rotation = f₀.rotation := by
        rw [ih, Account.charge, hopen]
      cases hc : f.concern? id e with
      | none =>
          have hstep := step_of_concern?_eq_none f now hc
          simp only [Account.charge, Account.add, account, hstep]
          exact hsame
      | some concern =>
          obtain ⟨p, q⟩ := concern
          obtain ⟨rfl, rfl⟩ := concern_of_follows (course_routes habsent hstart hbefore) he hc
          obtain ⟨g, hextends, hsettles⟩ := step_settles f now hc
          have hcharge := hsettles.charge_eq (a.add (f.account now id e)).visits
            (a.add (f.account now id e)).calls
          rw [hextends.rotation, hsame] at hcharge
          exact hcharge

/-! ## The breakers -/

/-- The end of an attempt is heard by the breaker of its node. -/
theorem Tells.conclude (hpending : r₀.Pending g.registry (nodeKey r.node.id) r.ticket) (now : Nat)
    (met : Encounter) (result : Except RoutingError Json) :
    Tells r₀ now r.id r.node (some met) (g.conclude now r result) := by
  obtain ⟨hwell, hheard⟩ := hpending.settle now (.ofResult result)
  exact .ends hwell hheard

/-- What is told after the pool's answer. -/
theorem Turn.tells (h : Turn now g r met out)
    (hpending : r₀.Pending g.registry (nodeKey r.node.id) r.ticket) :
    Tells r₀ now r.id r.node met out := by
  cases h with
  | waits => exact .waits (g.route?_keep r) hpending
  | refused e => exact .conclude hpending now _ _
  | calls call => exact .calls (g.route?_keep r) hpending
  | unsendable endpoint he =>
      exact .conclude (g := (g.onPool now (.release r.id)).1) hpending now _ _

/-- A rejection is heard by nobody. -/
theorem ofResult_of_isRejection {α : Type} {e : RoutingError} (h : e.isRejection = true) :
    Verdict.ofResult (.error e : Except RoutingError α) = .neutral := by
  have hneutral := RoutingError.not_counts_of_isRejection h
  simp [Verdict.ofResult, hneutral]

/-- **What an attempt tells.** -/
theorem attempt_tells (hquiet : r₀.Quiet f.registry) (now id : Nat) (purpose : Purpose)
    (plan : Plan) (node : Node) (rest : List Node) :
    Tells r₀ now id node (f.encounter? now id node)
      (f.attempt now id purpose plan node rest) := by
  obtain ⟨hasked, hadmitted⟩ := hquiet.ask (nodeKey node.id) now
  have hregistry :
      (f.askBreaker now node).1.registry = (f.registry.ask (nodeKey node.id) now).1 := rfl
  rcases attempt_cases f now id purpose plan node rest with
    ⟨g, err, hanswer, hmet, hattempt⟩ | ⟨g, ticket, hanswer, hmet, hturn⟩
  · have hg : (f.askBreaker now node).1 = g := by rw [hanswer]
    have herr : (f.askBreaker now node).2 = .error err := by rw [hanswer]
    rw [← hregistry, hg] at hasked
    rw [hmet, hattempt]
    refine .ends hasked.wellFormed ?_
    rw [ofResult_of_isRejection (isRejection_of_askBreaker herr)]
    exact hasked.unjudged
  · have hg : (f.askBreaker now node).1 = g := by rw [hanswer]
    have hticket : (f.askBreaker now node).2 = .ok ticket := by rw [hanswer]
    have hpending := hadmitted ticket hticket
    rw [← hregistry, hg] at hpending
    refine hturn.tells (r := ⟨id, purpose, plan, node, rest, ticket⟩) ?_
    rw [poolReply_eq]
    exact hpending

/-- A request is pending with its breaker as long as it is there. -/
theorem pending_of_route (hroute : f.route? id = some r)
    (hpending : r₀.Pending f.registry (nodeKey r.node.id) r.ticket) :
    ∀ q, f.route? id = some q → r₀.Pending f.registry (nodeKey q.node.id) q.ticket := by
  intro q hq
  obtain rfl := Option.some.inj (hroute.symm.trans hq)
  exact hpending

/-- A request that stays at a node, or has no other to go to, has told what there is to tell. -/
theorem Tells.informed {step : Attempt} (h : Tells r₀ now id node met (f, step))
    (hstays : step.movesOn = false ∨ rest = []) (visits : List Visit) (calls : List Call) :
    Informed r₀ id
      ⟨visits ++ Node.visit node met, calls,
        (proceed now id purpose plan rest node f step).2.result?, now⟩
      (proceed now id purpose plan rest node f step).1 := by
  cases h with
  | waits hroute hpending =>
      rw [proceed_queued]
      exact .notYet rfl hpending.toQuiet (pending_of_route hroute hpending)
  | calls hroute hpending =>
      rw [proceed_calling]
      exact .notYet rfl hpending.toQuiet (pending_of_route hroute hpending)
  | @ends _ met result hwell hheard =>
      have hlast : (visits ++ Node.visit node (some met)).getLast? = some ⟨node, met⟩ := by
        simp [Node.visit]
      cases result with
      | ok value =>
          rw [proceed_ok]
          exact .once rfl hlast hheard
      | error e =>
          have hproceed : proceed now id purpose plan rest node f (.finished (.error e)) =
              f.deliver now purpose (.error e) := by
            rcases hstays with hstays | rfl
            · exact proceed_of_counts (by simpa [Attempt.movesOn] using hstays) now id purpose plan
                rest node f
            · rfl
          rw [hproceed]
          exact .once rfl hlast hheard

/-- **Going on.**  However many nodes reject a request, only the end of its last attempt is
heard. -/
theorem proceed_informed (now : Nat) (purpose : Purpose) (plan : Plan) {step : Attempt}
    (h : Tells r₀ now id node met (f, step)) (visits : List Visit) (calls : List Call) :
    Informed r₀ id
      ⟨visits ++ (Node.visit node met ++
          if step.movesOn then visitsOn now id purpose plan rest f else []), calls,
        (proceed now id purpose plan rest node f step).2.result?, now⟩
      (proceed now id purpose plan rest node f step).1 := by
  induction rest generalizing visits node met f step with
  | nil =>
      simp only [visitsOn, ite_self, List.append_nil]
      exact h.informed (.inr rfl) visits calls
  | cons next rest ih =>
      cases hmoves : step.movesOn with
      | false =>
          simp only [Bool.false_eq_true, if_false, List.append_nil]
          exact h.informed (.inl hmoves) visits calls
      | true =>
          obtain ⟨e, rfl, hneutral⟩ := Attempt.exists_of_movesOn hmoves
          cases h with
          | @ends _ met _ hwell hheard =>
              have hquiet : r₀.Quiet f.registry := by
                simp only [Verdict.ofResult, hneutral, Bool.false_eq_true, if_false] at hheard
                exact ⟨hwell, hheard⟩
              rw [proceed_next hneutral, if_pos rfl, visitsOn_cons, ← List.append_assoc]
              exact ih (attempt_tells hquiet now id purpose plan next rest)
                (visits ++ Node.visit node (some met))

/-- A request goes on with the pool's answer. -/
theorem poolEvent_informed (hpending : r₀.Pending f.registry (nodeKey r.node.id) r.ticket)
    (now : Nat) (pe : PoolEvent Endpoint) (visits : List Visit) (calls : List Call) :
    Informed r₀ r.id
      ⟨visits ++ f.poolVisits now r pe, calls, (f.poolEvent now r pe).2.result?, now⟩
      (f.poolEvent now r pe).1 := by
  have hturn := afterOpening_turn (f.poolReply now r.id pe).1 now r (f.poolReply now r.id pe).2
  rw [← afterPool_eq] at hturn
  have hreplied : r₀.Pending (f.poolReply now r.id pe).1.registry (nodeKey r.node.id) r.ticket := by
    rw [poolReply_eq]
    exact hpending
  exact proceed_informed now r.purpose r.plan (hturn.tells hreplied) visits calls

/-- **One event.**  The breakers hear of a request when it ends, and not before. -/
theorem Informed.step {candidates : List Node} {model : String}
    (hstands : Stands candidates model id a f) (h : Informed r₀ id a f) (hopen : a.result = none)
    (he : e.Follows) (now : Nat) :
    Informed r₀ id (a.add (f.account now id e)) (f.step now id e).1 := by
  cases h with
  | once hresult => cases hopen.symm.trans hresult
  | notYet _ hquiet hroute =>
      cases hfound : f.route? id with
      | none =>
          obtain ⟨haccount, hstep⟩ := account_of_route?_eq_none hfound he now
          rw [haccount, hstep]
          exact .notYet rfl hquiet hroute
      | some r =>
          obtain rfl := id_of_route? hfound
          have hpending := hroute r hfound
          have hmoves := step_moves hfound he now
          unfold Account.add account
          generalize f.visits now r.id e = more at hmoves
          generalize f.step now r.id e = out at hmoves
          cases hmoves with
          | collects => exact poolEvent_informed hpending now _ _ _
          | expires => exact poolEvent_informed hpending now _ _ _
          | @answers result _ hlease =>
              obtain ⟨before, met, hvisits⟩ := hstands.last_visit hfound hlease
              rw [hvisits, List.append_assoc]
              exact proceed_informed now r.purpose r.plan
                (.conclude (g := (f.onPool now (.release r.id)).1) hpending now met result)
                before _
          | stays => exact .notYet rfl hquiet hroute
          | leaves =>
              have hgone : (f.giveUp now r).route? r.id = none := (Absent.giveUp f now r).route
              exact .notYet rfl hpending.abandon fun q hq => by cases hgone.symm.trans hq

/-- What happens while no other request moves is no verdict. -/
theorem Informed.alone (h : Informed r₀ id a f) (hopen : a.result = none) (ho : Alone id f g) :
    Informed r₀ id a g := by
  cases h with
  | once hresult => cases hopen.symm.trans hresult
  | notYet _ hquiet hroute =>
      cases ho with
      | timers now =>
          exact .notYet hopen (hquiet.fireDue now) fun r hr => (hroute r hr).fireDue now
      | onPool now he => exact .notYet hopen hquiet hroute
      | nodes http tracker => exact .notYet hopen hquiet hroute

/-- **What the breakers hear.**  A request that is alone is refused at once and leaves everything as
it was, or the breakers hear of it once, when it ends. -/
theorem course_informed (hwell : f₀.registry.WellFormed) (habsent : f₀.Absent id)
    (hstart : f₀.concern? id start = some (purpose, plan))
    (h : Course id (Alone id) f₀ t₀ start a f) :
    (f = f₀ ∧ a.visits = [] ∧ ∃ e, a.result = some (.error e)) ∨
      Informed f₀.registry id a f := by
  induction h with
  | begun =>
      unfold account
      rw [visits_of_start habsent.route hstart]
      rcases step_cases_of_start habsent.route hstart t₀ with
        ⟨htargets, ⟨-, hstep⟩ | ⟨-, t, hstep⟩⟩ | ⟨node, rest, htargets, -, hstep⟩
      · rw [htargets, hstep]
        exact .inl ⟨rfl, rfl, _, rfl⟩
      · rw [htargets, hstep]
        exact .inl ⟨rfl, rfl, _, rfl⟩
      · rw [htargets, hstep]
        have hquiet : f₀.registry.Quiet f₀.registry := ⟨hwell, .refl f₀.registry⟩
        exact .inr (proceed_informed t₀ purpose plan
          (attempt_tells hquiet t₀ id purpose plan node rest) [] _)
  | meanwhile _ hopen ho ih =>
      rcases ih with ⟨-, -, e, hresult⟩ | hinformed
      · cases hopen.symm.trans hresult
      · exact .inr (hinformed.alone hopen ho)
  | goesOn h hopen now he ih =>
      rcases ih with ⟨-, -, e, hresult⟩ | hinformed
      · cases hopen.symm.trans hresult
      · have hstands := course_stands (fun _ _ ho => ho.elsewhere.spares) habsent hstart h
        exact .inr (hinformed.step hstands hopen he now)

/-- What the breakers have heard of a request that is over. -/
theorem Informed.heard {result : Except RoutingError InferenceAnswer} (h : Informed r₀ id a f)
    (hresult : a.result = some result) :
    ∃ v, a.visits.getLast? = some v ∧
      r₀.Heard f.registry (nodeKey v.node.id) a.time (.ofResult result) := by
  cases h with
  | notYet hopen => cases hopen.symm.trans hresult
  | once hresult' hlast hheard =>
      obtain rfl := Option.some.inj (hresult'.symm.trans hresult)
      exact ⟨_, hlast, hheard⟩

/-- A failure that is heard is counted once, by the breaker of its key. -/
theorem totalFailures_of_heard {s : Registry} {key : String}
    (h : r₀.Heard s key now .failure) (k : String) :
    (s.breakerFor k).totalFailures =
      (r₀.breakerFor k).totalFailures + if k = key then 1 else 0 := by
  obtain ⟨admission, -, hjudged⟩ := h
  exact hjudged.totalFailures_eq k

/-- **Both are told once.**  When a dispatched request is over, and no other has moved meanwhile,
its end has been told to the credentials and to the breaker of the node it came to last, once, and
nothing else has. -/
theorem dispatch_informs_once {request : InferenceRequest} (hreachable : f₀.registry.Reachable)
    (habsent : f₀.Absent id) (h : Course id (Alone id) f₀ t₀ (.dispatch request) a f) :
    InformedOnce f₀ f a := by
  have hstart : f₀.concern? id (.dispatch request) = some (.active,
      f₀.planFor (request.model.getD f₀.rotation.currentModel) request) := by
    simp only [concern?, habsent.route]
  have hrotation := course_charges habsent hstart h
  have horderly := (course_stands (fun _ _ ho => ho.elsewhere.spares) habsent hstart h).orderly
  have hinformed := course_informed hreachable.wellFormed habsent hstart h
  refine ⟨fun answer hresult => ?_, fun e hresult hcounts => ?_, fun e hresult hneutral => ?_,
    fun e hresult hrefused => ?_⟩
  · have hsuccess : f.rotation = f₀.rotation.reportSuccess := by
      rw [hrotation, Account.charge, hresult]
      rfl
    rcases hinformed with ⟨-, -, e, herror⟩ | hinformed
    · cases hresult.symm.trans herror
    · obtain ⟨v, hlast, hheard⟩ := hinformed.heard hresult
      obtain ⟨node, hlast', hid⟩ := horderly.answered answer hresult
      obtain rfl := Option.some.inj (hlast.symm.trans hlast')
      rw [hid]
      exact ⟨hsuccess, hheard⟩
  · have hfailure :
        f.rotation = (f₀.rotation.reportFailure a.time (Failure.ofError a.time e)).1 := by
      rw [hrotation, Account.charge, hresult]
      simp only [Purpose.charge, hcounts, if_true]
    rcases hinformed with ⟨-, hnone, -⟩ | hinformed
    · obtain ⟨v, hlast, -⟩ := horderly.failed e hresult hcounts
      rw [hnone] at hlast
      cases hlast
    · obtain ⟨v, hlast, hheard⟩ := hinformed.heard hresult
      simp only [Verdict.ofResult, hcounts, if_true] at hheard
      exact ⟨hfailure, v, hlast, hheard, totalFailures_of_heard hheard⟩
  · have hsame : f.rotation = f₀.rotation := by
      rw [hrotation, Account.charge, hresult]
      simp only [Purpose.charge, hneutral, Bool.false_eq_true, if_false]
    rcases hinformed with ⟨rfl, -, -⟩ | hinformed
    · exact ⟨hsame, .refl _⟩
    · obtain ⟨v, -, hheard⟩ := hinformed.heard hresult
      simp only [Verdict.ofResult, hneutral, Bool.false_eq_true, if_false] at hheard
      exact ⟨hsame, hheard⟩
  · have hneutral : e.countsAsEndpointFailure = false ∧ e.isRejection = false := by
      rcases hrefused with ⟨model, rfl⟩ | ⟨t, rfl⟩ <;> exact ⟨rfl, rfl⟩
    rcases hinformed with ⟨hsame, -, -⟩ | hinformed
    · exact hsame
    · obtain ⟨v, hlast, -⟩ := hinformed.heard hresult
      rcases horderly.exhausted e hresult hneutral.1 with ⟨hrejection, -⟩ | ⟨hnone, -⟩
      · cases hneutral.2.symm.trans hrejection
      · rw [hnone] at hlast
        cases hlast

/-- The nearer of two nodes has been tripped; the only credential has failed once. -/
def nearerTripped : Fleet :=
  { nearerOpen with
    registry := ((({ config := {} } : Registry).getOrCreate "node:a:1" none).1.modify 0
      fun b => (b.trip 0, ())).1
    rotation := { Rotation.new [⟨⟨"sk-only"⟩, some "m", .config, 1⟩] { cooldown := 1 } with
      consecutive := 1, records := [some ⟨1, 0⟩] } }

/-- The farther of the nodes alone. -/
def fartherAlone : Fleet :=
  { nearerTripped with
    tracker := { nearerTripped.tracker with nodes := nearerTripped.tracker.nodes.drop 1 }
    registry := { config := {} } }

/-- An answer that is a failure of the endpoint. -/
def failedAnswer : RouteEvent :=
  .answered (Endpoint.readChat ⟨500, ""⟩)

/-- A request that is rejected by one node and answered by the other is a success of that node
alone, and one of the credential.  One that a node fails to answer is a failure of that node, and
one more of the credential. -/
theorem dispatch_informs_once_second_node :
    let a := (nearerTripped.account 1 1 askedForModel).add
      ((nearerTripped.step 1 1 askedForModel).1.account 2 1 emptyAnswer)
    let f := ((nearerTripped.step 1 1 askedForModel).1.step 2 1 emptyAnswer).1
    let b := (fartherAlone.account 1 1 askedForModel).add
      ((fartherAlone.step 1 1 askedForModel).1.account 2 1 failedAnswer)
    let g := ((fartherAlone.step 1 1 askedForModel).1.step 2 1 failedAnswer).1
    (a.visits.map (fun v => v.node.id) = ["a:1", "b:1"] ∧
      (f.registry.breakerFor "node:a:1").lastSuccess = none ∧
      (f.registry.breakerFor "node:b:1").lastSuccess = some 2 ∧
      f.rotation.records = [none] ∧
      InformedOnce nearerTripped f a) ∧
    b.visits.map (fun v => v.node.id) = ["b:1"] ∧
      (g.registry.breakerFor "node:b:1").totalFailures = 1 ∧
      g.rotation.consecutive = 2 ∧
      g.rotation.records = [some ⟨2, 2⟩] ∧
      InformedOnce fartherAlone g b := by
  intro a f b g
  have hrun : (a.visits.map fun v => v.node.id,
      (f.registry.breakerFor "node:a:1").lastSuccess,
      (f.registry.breakerFor "node:b:1").lastSuccess, f.rotation.records,
      (nearerTripped.account 1 1 askedForModel).result.isNone) =
      (["a:1", "b:1"], none, some 2, [none], true) := by
    unfold f
    cbv
  simp only [Prod.mk.injEq] at hrun
  obtain ⟨hvisits, hnear, hfar, hrecords, hnone⟩ := hrun
  have hreachable : nearerTripped.registry.Reachable :=
    .modify (.getOrCreate (.new {} true) "node:a:1" none) 0 fun b => (b.trip 0, ())
  have hopen : (nearerTripped.account 1 1 askedForModel).result = none :=
    Option.isNone_iff_eq_none.mp hnone
  have hanswered : emptyAnswer.Follows := Or.inl ⟨_, rfl⟩
  have hlone : (b.visits.map fun v => v.node.id,
      (g.registry.breakerFor "node:b:1").totalFailures, g.rotation.consecutive,
      g.rotation.records, (fartherAlone.account 1 1 askedForModel).result.isNone) =
      (["b:1"], 1, 2, [some ⟨2, 2⟩], true) := by
    decide +kernel
  simp only [Prod.mk.injEq] at hlone
  obtain ⟨hvisited, hharmed, hconsecutive, hcharged, hnone'⟩ := hlone
  have hopen' : (fartherAlone.account 1 1 askedForModel).result = none :=
    Option.isNone_iff_eq_none.mp hnone'
  have hfailed : failedAnswer.Follows := Or.inl ⟨_, rfl⟩
  exact ⟨⟨hvisits, hnear, hfar, hrecords,
      dispatch_informs_once hreachable ⟨rfl, rfl⟩ (.goesOn .begun hopen 2 hanswered)⟩,
    hvisited, hharmed, hconsecutive, hcharged,
    dispatch_informs_once (.new {} true) ⟨rfl, rfl⟩ (.goesOn .begun hopen' 2 hfailed)⟩

end Fleet

end InferenceRouting
