import InferenceRouting.Proofs.Pool.Age
import InferenceRouting.Proofs.Pool.Shutdown

/-!
# A sweep from beginning to end

A sweep closes the idle connections that are too old, probes the others, closes those that failed,
and opens connections until the pool holds its least size.  Here a sweep is followed that nothing
else happens in between (`SweepCourse`): each outcome says which event comes next, the probes give
some answer for each candidate, and every connection that is asked for is opened.

The three parts have one equation each: `beginSweep?_eq`, `applyProbes_eq`, and `refill_course_iff`,
in which the number of connections opened is that of those missing.  `run_sweeps` puts them together
for every pool that may come about.
-/

namespace InferenceRouting

namespace Pool

variable {κ : Type} {p : Pool κ} {n now id : Nat} {held : List (Lease κ)} {s : PoolSlot κ}
  {closing kept : List (PoolSlot κ)}

/-! ## Closing -/

/-- Closing some of the idle slots keeps the books, and leaves the others and the places of those
that are closed. -/
theorem AreIdle.closeAll (hidle : p.AreIdle (closing ++ kept)) (h : p.Sound n held)
    (reason : EvictionReason) :
    (p.closeAll (closing.map (·.id)) reason).Sound n held ∧
      (p.closeAll (closing.map (·.id)) reason).AreIdle kept ∧
      (p.closeAll (closing.map (·.id)) reason).size + closing.length = p.size := by
  induction closing generalizing p with
  | nil =>
      rw [List.map_nil, closeAll_nil]
      exact ⟨h, hidle, rfl⟩
  | cons s rest ih =>
      have hsize := size_evict h (hidle.mem s List.mem_cons_self).1 reason
      obtain ⟨hsound, hkept, hplaces⟩ := ih (hidle.evict reason) (hidle.evict_sound h reason)
      rw [closeAll_evict] at hsound hkept hplaces
      refine ⟨hsound, hkept, ?_⟩
      rw [List.length_cons]
      exact (Nat.succ_inj.mpr hplaces).trans hsize

/-- Closing idle slots leaves those in use. -/
theorem AreIdle.inUse_closeAll (hidle : p.AreIdle closing) (hn : (p.slots.map (·.id)).Nodup)
    (reason : EvictionReason) :
    (p.closeAll (closing.map (·.id)) reason).slots.filter (·.inUse) =
      p.slots.filter (·.inUse) := by
  simp only [Pool.closeAll, List.filter_filter]
  refine List.filter_congr fun s hs => ?_
  by_cases hin : s.id ∈ closing.map (·.id)
  · obtain ⟨t, ht, heq⟩ := List.mem_map.mp hin
    obtain ⟨htin, huse⟩ := hidle.mem t ht
    have hsame := Keyed.eq_of_mem hn htin hs heq.symm
    rw [hsame, huse]
    rfl
  · rw [decide_eq_true hin, Bool.and_true]

/-- A sweep of a pool nobody waits for closes the idle slots that are too old, as long as there are
too many, and is to probe the others. -/
theorem beginSweep?_eq (h : p.Sound n held) (hc : p.closed = false) (hw : p.waiters = [])
    (hids : (p.slots.map (·.id)).Pairwise (· < ·)) (now : Nat) :
    p.beginSweep? now = some
      (p.closeAll ((p.idleByAge.take (p.surplus now p.idleByAge)).map (·.id)) .idle,
        (p.idleByAge.drop (p.surplus now p.idleByAge)).map lease) := by
  have hretire := retire_eq h now (areIdle_idleByAge h.distinct) (idleByAge_before hids)
  simp only [beginSweep?, hc, Bool.false_eq_true, if_false, hretire]
  rw [grantRoom_of_empty]
  exact hw

/-! ## Probing -/

/-- Changing a slot to what it is changes nothing. -/
theorem setSlot_self {f : PoolSlot κ → PoolSlot κ} (hf : ∀ s ∈ p.slots, s.id = id → f s = s) :
    p.setSlot id f = p := by
  have hslots : (p.slots.map fun s => if s.id = id then f s else s) = p.slots := by
    refine (List.map_congr_left fun s hs => ?_).trans (List.map_id _)
    split
    · rename_i hid
      exact hf s hs hid
    · rfl
  unfold setSlot
  rw [hslots]

theorem slot?_of_mem (hn : (p.slots.map (·.id)).Nodup) (hs : s ∈ p.slots) :
    p.slot? s.id = some s := by
  obtain ⟨pre, post, hslots, hid⟩ := Keyed.exists_split hn hs
  exact slot?_eq hslots hid

/-- An idle connection that is alive is left as it is. -/
theorem applyProbe_alive (h : p.Sound n held) (hs : s ∈ p.slots) (huse : s.inUse = false) :
    p.applyProbe s.id true = p := by
  unfold applyProbe
  simp only [slot?_of_mem h.distinct hs, huse, if_true, Bool.false_eq_true, if_false]
  refine setSlot_self fun t ht hid => ?_
  rw [Keyed.eq_of_mem h.distinct hs ht hid, ← h.healthy s hs huse]

/-- An idle connection that failed is closed. -/
theorem applyProbe_failed (hn : (p.slots.map (·.id)).Nodup) (hs : s ∈ p.slots)
    (huse : s.inUse = false) : p.applyProbe s.id false = p.evict s.id .probeFailed := by
  simp [applyProbe, slot?_of_mem hn hs, huse]

/-- The probes of idle slots that nobody has picked up since close those that failed. -/
theorem applyProbes_eq (h : p.Sound n held) (hw : p.waiters = []) (hkept : p.AreIdle kept)
    (alive : Nat → Bool) :
    p.applyProbes ((kept.map lease).map fun l => (l.id, alive l.id)) =
      (p.closeAll ((kept.filter fun s => !alive s.id).map (·.id)) .probeFailed).publish := by
  have hfold : ((kept.map lease).map fun l => (l.id, alive l.id)).foldl
      (fun p r => p.applyProbe r.1 r.2) p =
        p.closeAll ((kept.filter fun s => !alive s.id).map (·.id)) .probeFailed := by
    clear hw
    induction kept generalizing p with
    | nil => exact (closeAll_nil p _).symm
    | cons s rest ih =>
        obtain ⟨hin, huse⟩ := hkept.mem s List.mem_cons_self
        rw [List.map_cons, List.map_cons, List.foldl_cons]
        simp only [lease]
        cases halive : alive s.id with
        | true =>
            rw [applyProbe_alive h hin huse, List.filter_cons_of_neg (by simp [halive])]
            exact ih h hkept.tail
        | false =>
            rw [applyProbe_failed h.distinct hin huse, List.filter_cons_of_pos (by simp [halive]),
              List.map_cons, ← closeAll_evict]
            exact ih (hkept.evict_sound h .probeFailed) (hkept.evict .probeFailed)
  unfold applyProbes
  rw [hfold, grantRoom_of_empty]
  exact hw

/-! ## Refilling -/

/-- An open pool nobody waits for, that may hold as many connections as it is to keep. -/
structure Quiet (p : Pool κ) : Prop where
  opened : p.closed = false
  unawaited : p.waiters = []
  sized : p.config.minSize ≤ p.config.maxSize
  recent : ∀ s ∈ p.slots, s.id ≤ p.lastId

/-- Takes in a connection to the default address, opened at some time, under the next id. -/
def takeIn (p : Pool κ) (c : Nat × κ) : Pool κ :=
  ({ p with
    lastId := p.lastId + 1
    slots := p.slots ++ [⟨p.lastId + 1, p.config.defaultBaseUrl, c.2, false, true, c.1⟩]
    meters := { p.meters with created := p.meters.created + 1 } } : Pool κ).publish

/-- The idle slots of connections to an address that come in after a slot with some id was made. -/
def slotsAfter (url : String) (id : Nat) : List (Nat × κ) → List (PoolSlot κ)
  | [] => []
  | c :: rest => ⟨id + 1, url, c.2, false, true, c.1⟩ :: slotsAfter url (id + 1) rest

theorem inUse_of_mem_slotsAfter {url : String} {opened : List (Nat × κ)}
    (hs : s ∈ slotsAfter url id opened) : s.inUse = false := by
  induction opened generalizing id with
  | nil => cases hs
  | cons c rest ih =>
      rcases List.mem_cons.mp hs with rfl | hs
      · rfl
      · exact ih hs

theorem Quiet.takeIn (h : p.Quiet) (c : Nat × κ) : (p.takeIn c).Quiet := by
  refine ⟨h.opened, h.unawaited, h.sized, fun s hs => ?_⟩
  rcases List.mem_append.mp hs with hs | hs
  · exact Nat.le_succ_of_le (h.recent s hs)
  · rw [List.mem_singleton.mp hs]
    exact Nat.le_refl _

theorem size_takeIn (p : Pool κ) (c : Nat × κ) : (p.takeIn c).size = p.size + 1 := by
  simp only [size, takeIn, publish, List.length_append, List.length_singleton]
  omega

/-- Taking in connections puts their slots behind the others; it counts them and sets the gauges, and
changes nothing else. -/
theorem foldl_takeIn (p : Pool κ) (opened : List (Nat × κ)) :
    opened.foldl takeIn p =
      { p with
        lastId := p.lastId + opened.length
        slots := p.slots ++ slotsAfter p.config.defaultBaseUrl p.lastId opened
        meters := { p.meters with
          created := p.meters.created + opened.length
          gauges := (opened.foldl takeIn p).meters.gauges } } := by
  induction opened generalizing p with
  | nil => simp [slotsAfter]
  | cons c rest ih =>
      rw [List.foldl_cons, ih]
      simp [takeIn, publish, slotsAfter, Nat.add_assoc, Nat.add_comm 1]

theorem size_foldl_takeIn (p : Pool κ) (opened : List (Nat × κ)) :
    (opened.foldl takeIn p).size = p.size + opened.length := by
  induction opened generalizing p with
  | nil => rfl
  | cons c rest ih =>
      rw [List.foldl_cons, ih, size_takeIn, List.length_cons]
      omega

/-- Offering an idle connection that nobody waits for changes nothing. -/
theorem offer_of_idle (hw : p.waiters = []) (hidle : ∀ s ∈ p.slots, s.id = id → s.inUse = false)
    (now : Nat) : p.offer now id = p := by
  unfold offer
  split
  · rfl
  · rw [hw]
    refine setSlot_self fun s hs hid => ?_
    rw [← hidle s hs hid]

/-- A connection that was opened for a sweep comes in when nobody waits. -/
theorem Quiet.commitIdle (h : p.Quiet) (now : Nat) (connection : κ) :
    ({ p with pending := p.pending + 1 } : Pool κ).commitIdle now p.config.defaultBaseUrl
      connection = (p.takeIn (now, connection), true) := by
  let s : PoolSlot κ := ⟨p.lastId + 1, p.config.defaultBaseUrl, connection, false, true, now⟩
  let q : Pool κ := { p with
    lastId := p.lastId + 1
    slots := p.slots ++ [s]
    meters := { p.meters with created := p.meters.created + 1 } }
  have hopen : ({ p with pending := p.pending + 1 } : Pool κ).commitIdle now
      p.config.defaultBaseUrl connection = ((q.offer now q.lastId).publish, true) :=
    if_neg (by simp [h.opened])
  have hidle : ∀ t ∈ q.slots, t.id = q.lastId → t.inUse = false := by
    intro t ht hid
    rcases List.mem_append.mp ht with ht | ht
    · exact absurd (hid ▸ h.recent t ht) (Nat.not_succ_le_self _)
    · rw [List.mem_singleton.mp ht]
  rw [hopen, offer_of_idle (p := q) h.unawaited hidle]
  rfl

end Pool

namespace PoolRun

variable {κ : Type} {r t : PoolRun κ} {id : Nat} {alive : Nat → Bool}
  {opened : List (Nat × κ)}

/-! ## The steps of a sweep -/

@[simp] theorem lookup_awaitSweep (r : PoolRun κ) (id : Nat) (phase : SweepPhase) :
    (r.awaitSweep id phase).sweeps.lookup id = some phase := by
  have hothers := Keyed.lookup_filter_self id r.sweeps
  simp only [awaitSweep, List.lookup_append, hothers, List.lookup_cons_self, Option.none_or]

@[simp] theorem awaitSweep_pool (r : PoolRun κ) (id : Nat) (phase : SweepPhase) :
    (r.awaitSweep id phase).pool = r.pool :=
  rfl

/-- Only what a sweep waits for last is noted. -/
theorem awaitSweep_again (r : PoolRun κ) (id : Nat) (phase phase' : SweepPhase) (q : Pool κ) :
    ({ r.awaitSweep id phase with pool := q } : PoolRun κ).awaitSweep id phase' =
      ({ r with pool := q } : PoolRun κ).awaitSweep id phase' := by
  simp [awaitSweep, List.filter_append]

theorem endSweep_awaitSweep (r : PoolRun κ) (id : Nat) (phase : SweepPhase) :
    (r.awaitSweep id phase).endSweep id = r.endSweep id := by
  simp [awaitSweep, endSweep, List.filter_append]

theorem endSweep_of_free (hfree : r.sweeps.lookup id = none) : r.endSweep id = r := by
  unfold endSweep
  rw [Keyed.filter_ne_of_notMem (Keyed.notMem_of_lookup_eq_none hfree)]

/-- A sweep is over when the pool holds its least size. -/
theorem step_refill_enough (r : PoolRun κ) (henough : r.pool.config.minSize ≤ r.pool.size)
    (now id : Nat) :
    (r.awaitSweep id .refilling).step now (.refill id) = (r.endSweep id, .swept) := by
  have hnone : (r.awaitSweep id .refilling).pool.reserveWarm? = none := by
    simp [Pool.reserveWarm?, henough]
  simp only [step, refill, lookup_awaitSweep, fill, hnone, endSweep_awaitSweep]

/-- A sweep reserves a place for a connection that is missing. -/
theorem step_refill_short (r : PoolRun κ) (h : r.pool.Quiet)
    (hshort : r.pool.size < r.pool.config.minSize) (now id : Nat) :
    (r.awaitSweep id .refilling).step now (.refill id) =
      (({ r with pool := { r.pool with pending := r.pool.pending + 1 } } : PoolRun κ).awaitSweep
        id .opening, .fill r.pool.config.defaultBaseUrl) := by
  have hroom := h.sized
  have hsome : (r.awaitSweep id .refilling).pool.reserveWarm? =
      some { r.pool with pending := r.pool.pending + 1 } := by
    have hguard : ¬(r.pool.closed || !r.pool.waiters.isEmpty || r.pool.config.minSize ≤ r.pool.size
        || r.pool.config.maxSize ≤ r.pool.size) = true := by
      simp [h.opened, h.unawaited]
      omega
    exact if_neg hguard
  simp only [step, refill, lookup_awaitSweep, fill, hsome, awaitSweep_again]

/-- The connection that was missing comes in. -/
theorem step_warmed_quiet (r : PoolRun κ) (h : r.pool.Quiet) (now id : Nat) (connection : κ) :
    (({ r with pool := { r.pool with pending := r.pool.pending + 1 } } : PoolRun κ).awaitSweep
      id .opening).step now (.warmed id (.ok connection)) =
        (({ r with pool := r.pool.takeIn (now, connection) } : PoolRun κ).awaitSweep id .refilling,
          .refill) := by
  simp only [step, warmed, lookup_awaitSweep, awaitSweep_pool, h.commitIdle, awaitSweep_again]

/-! ## The course of a sweep -/

/-- A sweep goes on from an outcome to its end, and nothing else happens meanwhile: the candidates
are probed, `alive` telling what comes of it; the size of the pool is looked at; and each connection
that is asked for is opened.  Those opened are listed, each with the time at which it came in. -/
inductive SweepCourse (id : Nat) (alive : Nat → Bool) :
    PoolRun κ → PoolOutcome κ → List (Nat × κ) → PoolRun κ → Prop where
  | probes {r t : PoolRun κ} {candidates : List (Lease κ)} {opened : List (Nat × κ)} (now : Nat)
      (rest :
        let next := r.step now (.probed id (candidates.map fun l => (l.id, alive l.id)))
        SweepCourse id alive next.1 next.2 opened t) :
      SweepCourse id alive r (.probe candidates) opened t
  | looks {r t : PoolRun κ} {opened : List (Nat × κ)} (now : Nat)
      (rest :
        let next := r.step now (.refill id)
        SweepCourse id alive next.1 next.2 opened t) :
      SweepCourse id alive r .refill opened t
  | opens {r t : PoolRun κ} {opened : List (Nat × κ)} (url : String) (now : Nat) (connection : κ)
      (rest :
        let next := r.step now (.warmed id (.ok connection))
        SweepCourse id alive next.1 next.2 opened t) :
      SweepCourse id alive r (.fill url) ((now, connection) :: opened) t
  | ends (r : PoolRun κ) : SweepCourse id alive r .swept [] r

/-- When the pool holds its least size the sweep looks at it and ends. -/
theorem refill_course_enough (henough : r.pool.config.minSize ≤ r.pool.size) :
    SweepCourse id alive (r.awaitSweep id .refilling) .refill opened t ↔
      opened = [] ∧ t = r.endSweep id := by
  constructor
  · intro hcourse
    cases hcourse with
    | looks now rest =>
        rw [step_refill_enough r henough] at rest
        cases rest
        exact ⟨rfl, rfl⟩
  · rintro ⟨rfl, rfl⟩
    refine .looks 0 ?_
    rw [step_refill_enough r henough]
    exact .ends _

/-- When the pool holds less the sweep takes one connection in, and looks at the pool again. -/
theorem refill_course_short (h : r.pool.Quiet) (hshort : r.pool.size < r.pool.config.minSize) :
    SweepCourse id alive (r.awaitSweep id .refilling) .refill opened t ↔
      ∃ c rest, opened = c :: rest ∧
        SweepCourse id alive (({ r with pool := r.pool.takeIn c } : PoolRun κ).awaitSweep id
          .refilling) .refill rest t := by
  constructor
  · intro hcourse
    cases hcourse with
    | looks now rest =>
        rw [step_refill_short r h hshort] at rest
        cases rest with
        | opens url now connection rest =>
            rw [step_warmed_quiet r h] at rest
            exact ⟨_, _, rfl, rest⟩
  · rintro ⟨c, rest, rfl, hrest⟩
    refine .looks 0 ?_
    rw [step_refill_short r h hshort]
    refine .opens _ c.1 c.2 ?_
    rw [step_warmed_quiet r h]
    exact hrest

/-- **Refilling.**  A sweep opens as many connections as are missing, whatever they are. -/
theorem refill_course_iff (h : r.pool.Quiet) :
    SweepCourse id alive (r.awaitSweep id .refilling) .refill opened t ↔
      opened.length = r.pool.config.minSize - r.pool.size ∧
        t = ({ r with pool := opened.foldl Pool.takeIn r.pool } : PoolRun κ).endSweep id := by
  induction opened generalizing r with
  | nil =>
      by_cases henough : r.pool.config.minSize ≤ r.pool.size
      · have hzero : r.pool.config.minSize - r.pool.size = 0 := Nat.sub_eq_zero_of_le henough
        simp [refill_course_enough henough, hzero]
      · have hmissing : 0 ≠ r.pool.config.minSize - r.pool.size := by omega
        rw [refill_course_short h (Nat.lt_of_not_le henough)]
        simp [hmissing]
  | cons c rest ih =>
      by_cases henough : r.pool.config.minSize ≤ r.pool.size
      · have hzero : r.pool.config.minSize - r.pool.size = 0 := Nat.sub_eq_zero_of_le henough
        simp [refill_course_enough henough, hzero]
      · have hsize := Pool.size_takeIn r.pool c
        have hconfig : (r.pool.takeIn c).config = r.pool.config := rfl
        have hmissing : rest.length = r.pool.config.minSize - (r.pool.takeIn c).size ↔
            (c :: rest).length = r.pool.config.minSize - r.pool.size := by
          rw [List.length_cons]
          omega
        rw [refill_course_short h (Nat.lt_of_not_le henough), ← hmissing]
        constructor
        · rintro ⟨c', rest', heq, hcourse⟩
          cases heq
          exact (ih (h.takeIn c)).mp hcourse
        · intro hrest
          exact ⟨c, rest, rfl, (ih (h.takeIn c)).mpr hrest⟩

/-! ## The whole sweep -/

/-- With the probes those that failed are closed, and the sweep goes on to refill the pool. -/
theorem probes_course_iff {n : Nat} {held : List (Lease κ)} {kept : List (PoolSlot κ)}
    (h : r.pool.Sound n held) (hw : r.pool.waiters = []) (hkept : r.pool.AreIdle kept) :
    SweepCourse id alive (r.awaitSweep id .probing) (.probe (kept.map Pool.lease)) opened t ↔
      SweepCourse id alive (({ r with
        pool := (r.pool.closeAll ((kept.filter fun s => !alive s.id).map (·.id))
          .probeFailed).publish } : PoolRun κ).awaitSweep id .refilling) .refill opened t := by
  have hstep (now : Nat) : (r.awaitSweep id .probing).step now
      (.probed id ((kept.map Pool.lease).map fun l => (l.id, alive l.id))) =
        (({ r with
          pool := (r.pool.closeAll ((kept.filter fun s => !alive s.id).map (·.id))
            .probeFailed).publish } : PoolRun κ).awaitSweep id .refilling, .refill) := by
    simp only [step, probed, lookup_awaitSweep, awaitSweep_pool,
      Pool.applyProbes_eq h hw hkept alive, awaitSweep_again]
  constructor
  · intro hcourse
    cases hcourse with
    | probes now rest =>
        rw [hstep] at rest
        exact rest
  · intro hcourse
    refine .probes 0 ?_
    rw [hstep]
    exact hcourse

/-- A sweep of a pool nobody waits for begins. -/
theorem step_sweep_quiet (h : r.Sound) (hc : r.pool.closed = false) (hw : r.pool.waiters = [])
    (hids : (r.pool.slots.map (·.id)).Pairwise (· < ·)) (hfree : r.sweeps.lookup id = none)
    (now : Nat) :
    r.step now (.sweep id) =
      (({ r with
        pool := r.pool.closeAll ((r.pool.idleByAge.take (r.pool.surplus now
          r.pool.idleByAge)).map (·.id)) .idle } : PoolRun κ).awaitSweep id .probing,
        .probe ((r.pool.idleByAge.drop (r.pool.surplus now r.pool.idleByAge)).map Pool.lease)) := by
  have hbegin := Pool.beginSweep?_eq h.settled.toSound hc hw hids now
  simp only [step, sweep, hfree, Option.isSome_none, Bool.false_eq_true, if_false, hbegin]

section Whole

variable {closing kept : List (PoolSlot κ)}

/-- The pool in which a sweep has closed some idle slots, and others of which the probe failed. -/
def probedPool (r : PoolRun κ) (closing failed : List (PoolSlot κ)) : Pool κ :=
  ((r.pool.closeAll (closing.map (·.id)) .idle).closeAll (failed.map (·.id)) .probeFailed).publish

theorem size_probedPool (h : r.Sound) (hidle : r.pool.AreIdle (closing ++ kept))
    {failed : List (PoolSlot κ)} (hfailed : failed.Sublist kept) :
    (r.probedPool closing failed).size = r.pool.size - closing.length - failed.length := by
  obtain ⟨hsound, hkept, hfirst⟩ := hidle.closeAll h.settled.toSound .idle
  have hfailed := hkept.sublist hfailed
  rw [← List.append_nil failed] at hfailed
  obtain ⟨-, -, hsecond⟩ := hfailed.closeAll hsound .probeFailed
  have hsame : (r.probedPool closing failed).size =
      ((r.pool.closeAll (closing.map (·.id)) .idle).closeAll (failed.map (·.id))
        .probeFailed).size := rfl
  omega

/-- From the probes on a sweep comes to its end with as many connections opened as are then
missing. -/
theorem sweep_course_iff (h : r.Sound) (hc : r.pool.closed = false) (hw : r.pool.waiters = [])
    (hsized : r.pool.config.minSize ≤ r.pool.config.maxSize)
    (hidle : r.pool.AreIdle (closing ++ kept)) (hfree : r.sweeps.lookup id = none) :
    SweepCourse id alive (({ r with
        pool := r.pool.closeAll (closing.map (·.id)) .idle } : PoolRun κ).awaitSweep id .probing)
      (.probe (kept.map Pool.lease)) opened t ↔
      let q := r.probedPool closing (kept.filter fun s => !alive s.id)
      opened.length = r.pool.config.minSize - q.size ∧
        t = { r with pool := opened.foldl Pool.takeIn q } := by
  obtain ⟨hsound, hkept, -⟩ := hidle.closeAll h.settled.toSound .idle
  have hquiet : (r.probedPool closing (kept.filter fun s => !alive s.id)).Quiet :=
    ⟨hc, hw, hsized, fun s hs => hsound.recent s (List.mem_filter.mp hs).1⟩
  have hend (q : Pool κ) : ({ r with pool := q } : PoolRun κ).endSweep id = { r with pool := q } :=
    endSweep_of_free hfree
  refine (probes_course_iff (r := { r with pool := r.pool.closeAll (closing.map (·.id)) .idle })
    hsound hw hkept).trans ((refill_course_iff (r := { r with
      pool := r.probedPool closing (kept.filter fun s => !alive s.id) }) hquiet).trans ?_)
  rw [hend]
  exact Iff.rfl

/-- What a sweep makes of a run in which it closed some idle slots, found that others had failed, and
opened connections. -/
structure Swept (r : PoolRun κ) (closing failed : List (PoolSlot κ)) (opened : List (Nat × κ))
    (t : PoolRun κ) : Prop where
  /-- The slots closed are gone, and those of the connections opened come after the others. -/
  slots : t.pool.slots = r.pool.slots.filter (·.id ∉ (closing ++ failed).map (·.id)) ++
    Pool.slotsAfter r.pool.config.defaultBaseUrl r.pool.lastId opened
  /-- The slots in use are as they were. -/
  inUse : t.pool.slots.filter (·.inUse) = r.pool.slots.filter (·.inUse)
  pending : t.pool.pending = r.pool.pending
  /-- Each slot closed is counted under its reason. -/
  evicted : ∀ reason, t.pool.meters.evicted reason = r.pool.meters.evicted reason +
    if reason = .idle then closing.length else if reason = .probeFailed then failed.length else 0
  created : t.pool.meters.created = r.pool.meters.created + opened.length
  /-- Nothing else under way is affected. -/
  others : (t.acquisitions, t.holders, t.sweeps, t.pool.waiters, t.pool.inbox, t.pool.closed) =
    (r.acquisitions, r.holders, r.sweeps, r.pool.waiters, r.pool.inbox, r.pool.closed)

/-- A sweep that closed some idle slots, and those among the others that had failed, and took
connections in. -/
theorem swept_of_probed (h : r.Sound) (hidle : r.pool.AreIdle (closing ++ kept))
    {failed : List (PoolSlot κ)} (hfailed : failed.Sublist kept) (opened : List (Nat × κ)) :
    Swept r closing failed opened
      { r with pool := opened.foldl Pool.takeIn (r.probedPool closing failed) } := by
  obtain ⟨hsound, hkept, -⟩ := hidle.closeAll h.settled.toSound .idle
  have hslots : (r.probedPool closing failed).slots =
      r.pool.slots.filter (·.id ∉ (closing ++ failed).map (·.id)) := by
    simp only [probedPool, Pool.publish, Pool.closeAll, List.filter_filter]
    refine List.filter_congr fun s _ => ?_
    simp [Bool.and_comm]
  have hinUse : (r.probedPool closing failed).slots.filter (·.inUse) =
      r.pool.slots.filter (·.inUse) :=
    ((hkept.sublist hfailed).inUse_closeAll hsound.distinct .probeFailed).trans
      ((hidle.sublist (List.sublist_append_left closing kept)).inUse_closeAll h.settled.distinct
        .idle)
  have hnew (url : String) (last : Nat) :
      (Pool.slotsAfter url last opened).filter (·.inUse) = [] :=
    List.filter_eq_nil_iff.mpr fun s hs => by simp [Pool.inUse_of_mem_slotsAfter hs]
  rw [Pool.foldl_takeIn]
  refine ⟨?_, ?_, rfl, ?_, rfl, rfl⟩
  · rw [← hslots]
    rfl
  · rw [List.filter_append, hnew, List.append_nil, hinUse]
  · intro reason
    cases reason <;> simp [probedPool, Pool.publish, Pool.closeAll]

end Whole

/-- **A health sweep from beginning to end.**  Take any open pool that may come about and that nobody
waits for.  A sweep closes, of its idle slots ordered by last use and then by id, the first ones: as
many as have been unused for more than the idle time, but no more than are above the least size.  It
probes all the others that are idle, and none in use.  Whatever the probes say, if nothing else
happens meanwhile, the sweep comes to its end when as many connections have been opened as are then
missing; the slots of which the probe failed are gone as well, the slots in use are as they were, and
the pool holds what was left or its least size, whichever is larger. -/
theorem run_sweeps (config : PoolConfig) (hmax : 1 ≤ config.maxSize)
    (hmin : config.minSize ≤ config.maxSize) :
    ∃ p : Pool κ, Pool.new config = .ok p ∧ ∀ events : List (Nat × PoolEvent κ),
      let r := ({ pool := p } : PoolRun κ).run events
      r.pool.closed = false → r.pool.waiters = [] → ∀ id, r.sweeps.lookup id = none → ∀ now,
        ∃ closing kept s,
          (closing ++ kept).Perm (r.pool.slots.filter fun slot => !slot.inUse) ∧
          (closing ++ kept).Pairwise PoolSlot.Before ∧
          closing.length = min
            (r.pool.slots.countP fun slot =>
              !slot.inUse && decide (config.maxIdle < now - slot.lastUsedAt))
            (r.pool.size - config.minSize) ∧
          r.step now (.sweep id) = (s, .probe (kept.map Pool.lease)) ∧
          s.pool = r.pool.closeAll (closing.map (·.id)) .idle ∧
          ∀ alive : Nat → Bool,
            let failed := kept.filter fun slot => !alive slot.id
            let left := r.pool.size - closing.length - failed.length
            (∀ opened, (∃ t, SweepCourse id alive s (.probe (kept.map Pool.lease)) opened t) ↔
              opened.length = config.minSize - left) ∧
            ∀ opened t, SweepCourse id alive s (.probe (kept.map Pool.lease)) opened t →
              Swept r closing failed opened t ∧ t.pool.size = max config.minSize left := by
  obtain ⟨p, hp, hrun⟩ := exists_run (κ := κ) config hmax hmin
  refine ⟨p, hp, fun events => ?_⟩
  obtain ⟨h, hconfig⟩ := hrun events
  intro r hc hw id hfree now
  have hconfig : r.pool.config = config := hconfig
  have hnew : p.slots = [] := by
    cases (Pool.new_eq_ok hmax hmin).symm.trans hp
    rfl
  have hids := run_ordered (sound_new hp) hnew events hc
  let idle := r.pool.idleByAge
  let k := r.pool.surplus now idle
  have hsplit : idle.take k ++ idle.drop k = idle := List.take_append_drop k idle
  have hidle : r.pool.AreIdle (idle.take k ++ idle.drop k) := by
    rw [hsplit]
    exact Pool.areIdle_idleByAge h.settled.distinct
  have hsized : r.pool.config.minSize ≤ r.pool.config.maxSize := hconfig ▸ hmin
  refine ⟨idle.take k, idle.drop k, _, ?_, ?_, ?_, step_sweep_quiet h hc hw hids hfree now, rfl, ?_⟩
  · rw [hsplit]
    exact r.pool.idleByAge_perm
  · rw [hsplit]
    exact Pool.idleByAge_before hids
  · rw [← hconfig]
    exact r.pool.length_retired now
  · intro alive failed left
    have hfailed : failed.Sublist (idle.drop k) := List.filter_sublist
    have hleft : (r.probedPool (idle.take k) failed).size = left :=
      size_probedPool h hidle hfailed
    have hcourse (opened : List (Nat × κ)) (t : PoolRun κ) :
        SweepCourse id alive _ (.probe ((idle.drop k).map Pool.lease)) opened t ↔
          opened.length = r.pool.config.minSize - (r.probedPool (idle.take k) failed).size ∧
            t = { r with pool := opened.foldl Pool.takeIn (r.probedPool (idle.take k) failed) } :=
      sweep_course_iff h hc hw hsized hidle hfree
    refine ⟨fun opened => ?_, fun opened t ht => ?_⟩
    · rw [← hleft, ← hconfig]
      exact ⟨fun ⟨t, ht⟩ => ((hcourse opened t).mp ht).1,
        fun hlength => ⟨_, (hcourse opened _).mpr ⟨hlength, rfl⟩⟩⟩
    · obtain ⟨hlength, rfl⟩ := (hcourse opened t).mp ht
      refine ⟨swept_of_probed h hidle hfailed opened, ?_⟩
      rw [← hconfig, Pool.size_foldl_takeIn, hlength, hleft]
      omega

/-- Of three connections two are idle for too long, but one of them is to be kept: it is probed, and
when it fails another one is opened in its place. -/
theorem run_sweeps_three :
    ∃ p : Pool Unit, Pool.new { maxSize := 3, minSize := 2, maxIdle := 10 } = .ok p ∧
      let r := ({ pool := p } : PoolRun Unit).run
        [(0, .acquire 1 (some "a")), (0, .opened 1 (.ok ())), (0, .acquire 2 (some "b")),
          (0, .opened 2 (.ok ())), (0, .acquire 3 (some "c")), (0, .opened 3 (.ok ())),
          (1, .release 1), (1, .release 2)]
      r.pool.size = 3 ∧ r.pool.closed = false ∧ r.pool.waiters = [] ∧
        ∃ s, r.step 20 (.sweep 7) = (s, .probe [⟨2, "b", ()⟩]) ∧
          ∃ t, SweepCourse 7 (fun _ => false) s (.probe [⟨2, "b", ()⟩]) [(21, ())] t ∧
            t.pool.size = 2 ∧ t.pool.meters.evicted .idle = 1 ∧
            t.pool.meters.evicted .probeFailed = 1 := by
  obtain ⟨p, hp, hrun⟩ := run_sweeps (κ := Unit) { maxSize := 3, minSize := 2, maxIdle := 10 }
    (by decide) (by decide)
  have hsweep := hrun
    [(0, .acquire 1 (some "a")), (0, .opened 1 (.ok ())), (0, .acquire 2 (some "b")),
      (0, .opened 2 (.ok ())), (0, .acquire 3 (some "c")), (0, .opened 3 (.ok ())),
      (1, .release 1), (1, .release 2)]
  cases hp
  obtain ⟨closing, kept, s, -, -, hclosing, hstep, -, hprobes⟩ := hsweep rfl rfl 7 rfl 20
  refine ⟨_, rfl, rfl, rfl, rfl, s, ?_⟩
  have hcandidates : kept.map Pool.lease = [⟨2, "b", ()⟩] :=
    (PoolOutcome.probe.inj (congrArg Prod.snd hstep)).symm
  have hclosing : closing.length = 1 := hclosing
  have hfailed : (kept.filter fun slot => !(fun _ => false) slot.id).length = 1 := by
    have hall : (kept.filter fun slot => !(fun _ => false) slot.id) = kept :=
      List.filter_eq_self.mpr fun _ _ => rfl
    rw [hall, ← List.length_map (f := Pool.lease), hcandidates]
    rfl
  rw [hcandidates] at hstep hprobes
  obtain ⟨hopened, hends⟩ := hprobes fun _ => false
  rw [hclosing, hfailed] at hopened hends
  obtain ⟨t, ht⟩ := (hopened [(21, ())]).mpr rfl
  obtain ⟨hswept, hsize⟩ := hends _ t ht
  refine ⟨hstep, t, ht, hsize, ?_, ?_⟩
  · rw [hswept.evicted, if_pos rfl, hclosing]
    rfl
  · rw [hswept.evicted, if_neg (by decide), if_pos rfl, hfailed]
    rfl

end PoolRun

end InferenceRouting
