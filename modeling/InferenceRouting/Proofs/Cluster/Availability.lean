import InferenceRouting.Proofs.Cluster.Records
import Mathlib.Data.String.Basic

/-!
# Which models become available

A model is available while some online node has it (`Tracker.Serves`).  That is a property of all
records together: a message may change the models and the status of its sender at once, while
another node goes on serving what the sender dropped.

`run_announces_models` says that every event publishes exactly the models that are available after
it and were not before, each once, in ascending order, and after what it publishes of nodes.
-/

namespace InferenceRouting.Cluster

namespace ModelSet

variable {name model : String} {set : ModelSet}

theorem mem_insert : model ∈ insert name set ↔ model = name ∨ model ∈ set := by
  induction set with
  | nil => simp [insert]
  | cons m rest ih =>
      unfold insert
      by_cases hlt : name < m
      · rw [if_pos hlt, List.mem_cons]
      · rw [if_neg hlt]
        by_cases heq : name = m
        · rw [if_pos heq, List.mem_cons, heq]
          exact ⟨.inr, fun h => h.elim .inl id⟩
        · rw [if_neg heq, List.mem_cons, List.mem_cons, ih]
          exact or_left_comm

/-- A set stays ascending. -/
theorem pairwise_insert (name : String) (h : set.Pairwise (· < ·)) :
    (insert name set).Pairwise (· < ·) := by
  induction set with
  | nil => exact List.pairwise_singleton _ name
  | cons m rest ih =>
      obtain ⟨hfirst, hrest⟩ := List.pairwise_cons.mp h
      unfold insert
      by_cases hlt : name < m
      · rw [if_pos hlt]
        refine List.pairwise_cons.mpr ⟨fun x hx => ?_, h⟩
        rcases List.mem_cons.mp hx with rfl | hx
        · exact hlt
        · exact hlt.trans (hfirst x hx)
      · rw [if_neg hlt]
        by_cases heq : name = m
        · rw [if_pos heq]
          exact h
        · rw [if_neg heq]
          refine List.pairwise_cons.mpr ⟨fun x hx => ?_, ih hrest⟩
          rcases mem_insert.mp hx with rfl | hx
          · exact lt_of_le_of_ne (le_of_not_gt hlt) (Ne.symm heq)
          · exact hfirst x hx

/-- The set of a list is ascending, and has the names of the list. -/
theorem ofList_spec (names : List String) :
    (ofList names).Pairwise (· < ·) ∧ ∀ model, model ∈ ofList names ↔ model ∈ names := by
  have hfold : ∀ (names : List String) (set : ModelSet), set.Pairwise (· < ·) →
      (names.foldl (fun set name => insert name set) set).Pairwise (· < ·) ∧
        ∀ model, model ∈ names.foldl (fun set name => insert name set) set ↔
          model ∈ set ∨ model ∈ names := by
    intro names
    induction names with
    | nil => exact fun set h => ⟨h, fun model => by simp⟩
    | cons name rest ih =>
        intro set h
        obtain ⟨hsorted, hmem⟩ := ih (insert name set) (pairwise_insert name h)
        refine ⟨hsorted, fun model => (hmem model).trans ?_⟩
        rw [mem_insert, List.mem_cons]
        exact ⟨fun h => h.elim (fun h => h.elim (.inr ∘ .inl) .inl) (.inr ∘ .inr),
          fun h => h.elim (.inl ∘ .inr) fun h => h.elim (.inl ∘ .inl) .inr⟩
  obtain ⟨hsorted, hmem⟩ := hfold names [] .nil
  exact ⟨hsorted, fun model => (hmem model).trans (by simp)⟩

end ModelSet

/-- The model that a change tells of, if it tells of one. -/
def MembershipEvent.model? : MembershipEvent → Option String
  | .modelAvailable model => some model
  | _ => none

namespace Tracker

/-- Some online node has the model. -/
def Serves (t : Tracker) (model : String) : Prop :=
  ∃ n ∈ t.nodes, n.isOnline = true ∧ n.serves model = true

/-- An event that makes no node online: anything but a message, and a status from a node that is
not known. -/
def BringsNothing (t : Tracker) : TrackerEvent → Prop
  | .message m => m.kind = .status ∧ t.node? m.nodeId = none
  | _ => True

/-- What has been published ends with the models that are available now and were not before, each
once and in ascending order; what comes before them tells of nodes. -/
structure AnnouncesModels (t u : Tracker) (published changes : List MembershipEvent)
    (models : List String) : Prop where
  parts : published = changes ++ models.map .modelAvailable
  others : ∀ c ∈ changes, c.model? = none
  ascending : models.Pairwise (· < ·)
  exact : ∀ model, model ∈ models ↔ u.Serves model ∧ ¬t.Serves model

variable {t u : Tracker} {model : String}

/-- The models that a tracker counts as online are those that are available. -/
theorem mem_onlineModels : model ∈ t.onlineModels ↔ t.Serves model := by
  unfold onlineModels Serves Node.serves
  rw [(ModelSet.ofList_spec _).2 model, List.mem_flatMap]
  constructor
  · rintro ⟨n, hn, hmodel⟩
    obtain ⟨hn, honline⟩ := List.mem_filter.mp hn
    exact ⟨n, hn, honline, by simpa using hmodel⟩
  · rintro ⟨n, hn, honline, hmodel⟩
    exact ⟨n, List.mem_filter.mpr ⟨hn, honline⟩, by simpa using hmodel⟩

theorem announcesModels_handle (t : Tracker) (now : Nat) (m : Message) :
    ∃ changes models, AnnouncesModels t (t.handle now m).1 (t.handle now m).2 changes models ∧
      (t.BringsNothing (.message m) → models = []) := by
  let after := (t.handle now m).1.onlineModels
  refine ⟨_, after.filter fun model => !t.onlineModels.contains model,
    ⟨events_handle t now m, ?_, ?_, ?_⟩, ?_⟩
  · intro c hc
    split at hc
    · obtain rfl := List.mem_singleton.mp hc
      rfl
    · cases hc
  · exact (ModelSet.ofList_spec _).1.filter _
  · intro model
    rw [List.mem_filter, mem_onlineModels]
    refine and_congr_right fun _ => ?_
    simp [mem_onlineModels]
  · rintro ⟨hkind, hunknown⟩
    have hsame : (t.handle now m).1.nodes = t.nodes := by
      rw [nodes_handle, hunknown]
      exact if_pos hkind
    refine List.filter_eq_nil_iff.mpr fun model hmodel => ?_
    rw [show after = t.onlineModels from onlineModels_congr hsame] at hmodel
    simpa using hmodel

/-- Where no model becomes available, there is none to tell of. -/
theorem announcesModels_of_serves {published : List MembershipEvent}
    (hserves : ∀ model, u.Serves model → t.Serves model)
    (hothers : ∀ c ∈ published, c.model? = none) : AnnouncesModels t u published published [] where
  parts := (List.append_nil published).symm
  others := hothers
  ascending := .nil
  exact model := ⟨nofun, fun h => absurd (hserves model h.1) h.2⟩

/-- A node that is added is not online. -/
theorem serves_of_add {now : Nat} {host : String} {port : Nat} {name : Option String}
    {models : List String} (h : (t.add now host port name models).1.Serves model) :
    t.Serves model := by
  unfold add at h
  dsimp only at h
  split at h
  · exact h
  · obtain ⟨n, hn, honline, hmodel⟩ := h
    rcases List.mem_append.mp hn with hold | hnew
    · exact ⟨n, hold, honline, hmodel⟩
    · obtain rfl := List.mem_singleton.mp hnew
      cases honline

theorem serves_of_remove {id : String} (h : (t.remove id).1.Serves model) : t.Serves model := by
  unfold remove at h
  split at h
  · obtain ⟨n, hn, hserves⟩ := h
    exact ⟨n, (List.mem_filter.mp hn).1, hserves⟩
  · exact h

/-- A sweep makes no node online. -/
theorem serves_of_sweep {now : Nat} (h : (t.sweep now).1.Serves model) : t.Serves model := by
  obtain ⟨n, hn, honline, hmodel⟩ := h
  rw [nodes_sweep] at hn
  obtain ⟨old, hold, rfl⟩ := List.mem_map.mp hn
  unfold sweptNode at honline hmodel
  split at honline
  · cases honline
  · rename_i hheard
    rw [if_neg hheard] at hmodel
    exact ⟨old, hold, honline, hmodel⟩

/-- **One event.**  It publishes the models that it makes available. -/
theorem announcesModels_step (t : Tracker) (now : Nat) (e : TrackerEvent) :
    ∃ changes models, AnnouncesModels t (t.step now e).1 (t.step now e).2 changes models ∧
      (t.BringsNothing e → models = []) := by
  cases e with
  | message m => exact t.announcesModels_handle now m
  | add host port name =>
      exact ⟨_, _, announcesModels_of_serves (fun _ => serves_of_add) nofun, fun _ => rfl⟩
  | addStatic n =>
      exact ⟨_, _, announcesModels_of_serves (fun _ => serves_of_add) nofun, fun _ => rfl⟩
  | remove id =>
      refine ⟨_, _, announcesModels_of_serves (fun _ => serves_of_remove) fun c hc => ?_,
        fun _ => rfl⟩
      simp only [step, remove] at hc
      split at hc
      · obtain rfl := List.mem_singleton.mp hc
        rfl
      · cases hc
  | sweep =>
      refine ⟨_, _, announcesModels_of_serves (fun _ => serves_of_sweep) fun c hc => ?_,
        fun _ => rfl⟩
      obtain ⟨id, -, rfl⟩ := List.mem_map.mp hc
      rfl

/-- **Available models are announced.**  At every moment of a run, the next event publishes exactly
the models that some online node has after it and none had before, each once, in ascending order and
after all that it publishes of nodes.  Only a message can publish any, and a status from a node that
is not known publishes none. -/
theorem run_announces_models (config : MembershipConfig) (events : List (Nat × TrackerEvent))
    (now : Nat) (e : TrackerEvent) :
    let t := (Tracker.new config).run events
    ∃ changes models, AnnouncesModels t (t.step now e).1 (t.step now e).2 changes models ∧
      (t.BringsNothing e → models = []) :=
  ((Tracker.new config).run events).announcesModels_step now e

/-- A node that comes online brings those of its models that no other online node has. -/
example :
    let announce (id : String) (models : List String) : TrackerEvent := .message
      ⟨.announce, id, .obj [("models", .arr (models.map .str))], 0⟩
    let t := (Tracker.new {}).run [(0, announce "a:1" ["m"])]
    (t.step 1 (announce "b:1" ["n", "m", "l"])).2 =
      [.nodeOnline "b:1", .modelAvailable "l", .modelAvailable "n"] := by
  decide +kernel

end Tracker

end InferenceRouting.Cluster
