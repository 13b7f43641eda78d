import InferenceRouting.Cluster.Payload
import InferenceRouting.Proofs.Json.Values
import Mathlib.Tactic.SplitIfs

/-!
# Payloads are read field by field

A payload belongs to the node that sends it, and nothing is promised about it.  Each field is read
from the value at its own key and from nothing else (`get_ofJson`), so a change at one key cannot
cost another field, and what no field is read from does not matter.

What a field can be read from is said beside the readers: `Field.Fits` tells the values of the type
of a field and `Field.Holds` what they say.  Two of them are not plain.  The resources are one value
with five members, by key in an object or by place in an array, of which one that is of another type
spoils them all (`NodeResources.ofJson?_eq_some_iff`).  The models are the names among the items of
a list, and an item that is none is left out (`Names`).
-/

namespace InferenceRouting.Cluster

theorem NodeStatus.ofText?_eq_some_iff {text : String} {status : NodeStatus} :
    NodeStatus.ofText? text = some status ↔ text = status.text := by
  constructor
  · intro h
    unfold NodeStatus.ofText? at h
    split_ifs at h with hname hname hname hname
    all_goals
      cases h
      exact hname
  · rintro rfl
    cases status <;> rfl

/-- A status is read from its name in either form. -/
theorem NodeStatus.ofJson?_eq_some_iff {j : Json} {status : NodeStatus} :
    NodeStatus.ofJson? j = some status ↔
      j = .str status.text ∨ j = .obj [(status.text, .null)] := by
  simp [NodeStatus.ofJson?, Option.bind_eq_some_iff, NodeStatus.ofText?_eq_some_iff,
    Json.asName?_eq_some_iff]

/-! ## Resources -/

namespace NodeResources

/-- The members of the resources. -/
inductive Member where
  | cpuUsage
  | memoryTotal
  | memoryUsed
  | gpuName
  | gpuMemory

namespace Member

/-- The key of a member in an object. -/
def key : Member → String
  | .cpuUsage => "cpuUsage"
  | .memoryTotal => "memoryTotal"
  | .memoryUsed => "memoryUsed"
  | .gpuName => "gpuName"
  | .gpuMemory => "gpuMemory"

/-- The place of a member in an array. -/
def place : Member → Nat
  | .cpuUsage => 0
  | .memoryTotal => 1
  | .memoryUsed => 2
  | .gpuName => 3
  | .gpuMemory => 4

/-- The value given for a member. -/
def given? (m : Member) : Json → Option Json
  | .obj members => members.lookup m.key
  | .arr items => items[m.place]?
  | _ => none

/-- Whether a value is of the type of a member: a number, a 64-bit natural number, or a text.  Any
member may be null. -/
def Fits : Member → Json → Prop
  | .cpuUsage, j => j = .null ∨ ∃ n, j = .num n
  | .memoryTotal, j | .memoryUsed, j | .gpuMemory, j =>
    j = .null ∨ ∃ n : Nat, n ≤ Json.maxNat64 ∧ j = .ofNat n
  | .gpuName, j => j = .null ∨ ∃ s, j = .str s

end Member

/-- Whether a value has members at all: an object, or an array of five items at most. -/
def IsRecord : Json → Prop
  | .obj _ => True
  | .arr items => items.length ≤ 5
  | _ => False

/-- Whether a value is of the type of resources: its known members are all of their types. -/
def Fits (j : Json) : Prop :=
  IsRecord j ∧ ∀ (m : Member) (value : Json), m.given? j = some value → m.Fits value

/-- What a value says of each member by itself. -/
def said (j : Json) : NodeResources where
  cpuUsage := (Member.cpuUsage.given? j).bind Json.asReal?
  memoryTotal := (Member.memoryTotal.given? j).bind Json.asNat64?
  memoryUsed := (Member.memoryUsed.given? j).bind Json.asNat64?
  gpuName := (Member.gpuName.given? j).bind Json.asString?
  gpuMemory := (Member.gpuMemory.given? j).bind Json.asNat64?

/-- Reads a member that may be missing. -/
def optional? {α : Type} (read : Json → Option α) : Option Json → Option (Option α)
  | some value => value.asOption? read
  | none => some none

variable {j : Json} {m : Member} {r : NodeResources}

/-- A member is readable if it is missing, null, or of its type. -/
theorem optional?_eq_some_iff {α : Type} (read : Json → Option α) (hnull : read .null = none)
    {given : Option Json} {a : Option α} :
    optional? read given = some a ↔
      (∀ value, given = some value → value = .null ∨ ∃ b, read value = some b) ∧
        a = given.bind read := by
  cases given with
  | none => simp [optional?, eq_comm]
  | some value =>
      by_cases hvalue : value = .null
      · subst hvalue
        simp [optional?, Json.asOption?, hnull, eq_comm]
      · have hread : value.asOption? read = (read value).map some := by
          cases value <;> first | rfl | exact absurd rfl hvalue
        simp only [optional?, hread]
        cases hb : read value with
        | none => simp [hvalue, hb]
        | some b => simp [hvalue, hb, eq_comm]

theorem fits_number_iff : (j = .null ∨ ∃ n, j = .num n) ↔ j = .null ∨ ∃ x, j.asReal? = some x := by
  cases j with
  | num n => cases n <;> simp [Json.asReal?]
  | null | bool | str | arr | obj => simp [Json.asReal?]

theorem fits_natural_iff : (j = .null ∨ ∃ n : Nat, n ≤ Json.maxNat64 ∧ j = .ofNat n) ↔
    j = .null ∨ ∃ n, j.asNat64? = some n := by
  simp only [Json.asNat64?, Json.asNat?_eq_some_iff]

theorem fits_text_iff : (j = .null ∨ ∃ s, j = .str s) ↔ j = .null ∨ ∃ s, j.asString? = some s := by
  simp only [Json.asString?_eq_some_iff]

/-- Among values in the places of names, the one at the place of a name is looked up. -/
theorem lookup_zip {names : List String} (hn : names.Nodup) {items : List Json} {place : Nat}
    {name : String} (h : names[place]? = some name) :
    (names.zip items).lookup name = items[place]? := by
  induction names generalizing items place with
  | nil => cases h
  | cons first rest ih =>
      obtain ⟨hfirst, hrest⟩ := List.nodup_cons.mp hn
      cases items with
      | nil => simp
      | cons item items =>
          cases place with
          | zero =>
              obtain rfl := Option.some.inj h
              simp
          | succ place =>
              have hname : rest[place]? = some name := h
              have hne : (name == first) = false :=
                beq_false_of_ne fun heq => hfirst (heq ▸ List.mem_of_getElem? hname)
              simp [List.lookup_cons, hne, ih hrest hname]

/-- A record gives the members that are given by key or by place. -/
theorem record?_of_isRecord (h : IsRecord j) :
    ∃ field, j.record? fields = some field ∧ ∀ m : Member, field m.key = m.given? j := by
  cases j with
  | obj members => exact ⟨_, rfl, fun m => rfl⟩
  | arr items =>
      refine ⟨_, if_pos h, fun m => ?_⟩
      refine lookup_zip (by decide) ?_
      cases m <;> rfl
  | null | bool | num | str => exact h.elim

theorem isRecord_of_record? {field : String → Option Json} (h : j.record? fields = some field) :
    IsRecord j := by
  cases j with
  | obj members => trivial
  | arr items =>
      simp only [Json.record?] at h
      split at h
      · assumption
      · cases h
  | null | bool | num | str => cases h

theorem ofJson?_eq (j : Json) :
    ofJson? j = (j.record? fields).bind fun field =>
      (optional? Json.asReal? (field Member.cpuUsage.key)).bind fun cpuUsage =>
      (optional? Json.asNat64? (field Member.memoryTotal.key)).bind fun memoryTotal =>
      (optional? Json.asNat64? (field Member.memoryUsed.key)).bind fun memoryUsed =>
      (optional? Json.asString? (field Member.gpuName.key)).bind fun gpuName =>
      (optional? Json.asNat64? (field Member.gpuMemory.key)).bind fun gpuMemory =>
      some { cpuUsage, memoryTotal, memoryUsed, gpuName, gpuMemory } :=
  rfl

/-- **Resources.**  They are read if all known members are of their types, and then each member by
itself. -/
theorem ofJson?_eq_some_iff : ofJson? j = some r ↔ Fits j ∧ r = said j := by
  rw [ofJson?_eq]
  by_cases hrecord : IsRecord j
  · obtain ⟨field, hfield, hgiven⟩ := record?_of_isRecord hrecord
    simp only [hfield, Option.bind_some, hgiven, Option.bind_eq_some_iff,
      optional?_eq_some_iff Json.asReal? rfl,
      optional?_eq_some_iff Json.asNat64? rfl,
      optional?_eq_some_iff Json.asString? rfl, ← fits_number_iff, ← fits_natural_iff,
      ← fits_text_iff]
    constructor
    · rintro ⟨_, ⟨hcpu, rfl⟩, _, ⟨htotal, rfl⟩, _, ⟨hused, rfl⟩, _, ⟨hname, rfl⟩, _, ⟨hmemory, rfl⟩,
        hr⟩
      refine ⟨⟨hrecord, fun m => ?_⟩, (Option.some.inj hr).symm⟩
      cases m with
      | cpuUsage => exact hcpu
      | memoryTotal => exact htotal
      | memoryUsed => exact hused
      | gpuName => exact hname
      | gpuMemory => exact hmemory
    · rintro ⟨⟨-, hfits⟩, rfl⟩
      exact ⟨_, ⟨hfits .cpuUsage, rfl⟩, _, ⟨hfits .memoryTotal, rfl⟩, _, ⟨hfits .memoryUsed, rfl⟩,
        _, ⟨hfits .gpuName, rfl⟩, _, ⟨hfits .gpuMemory, rfl⟩, rfl⟩
  · have hnone : j.record? fields = none :=
      Option.eq_none_iff_forall_ne_some.mpr fun field hfield =>
        hrecord (isRecord_of_record? hfield)
    simp [hnone, Fits, hrecord]

end NodeResources

/-! ## Fields -/

namespace NodePayload

/-- An item that names a model: a text, or an object with a text as its name. -/
def IsModel (item : Json) (name : String) : Prop :=
  item = .str name ∨ ∃ members, item = .obj members ∧ members.lookup "name" = some (.str name)

/-- The names among the items of a list, in their order. -/
inductive Names : List Json → List String → Prop
  | nil : Names [] []
  | named {item : Json} {name : String} {items : List Json} {names : List String}
      (h : IsModel item name) (hrest : Names items names) : Names (item :: items) (name :: names)
  | leftOut {item : Json} {items : List Json} {names : List String}
      (h : ∀ name, ¬IsModel item name) (hrest : Names items names) : Names (item :: items) names

/-- The fields of a payload. -/
inductive Field where
  | host
  | port
  | name
  | models
  | resources
  | status

namespace Field

/-- The key of a field. -/
def key : Field → String
  | .host => "host"
  | .port => "port"
  | .name => "name"
  | .models => "models"
  | .resources => "resources"
  | .status => "status"

/-- What a field holds. -/
def Value : Field → Type
  | .host | .name => String
  | .port => Nat
  | .models => List String
  | .resources => NodeResources
  | .status => NodeStatus

/-- Whether a value is of the type of a field. -/
def Fits : Field → Json → Prop
  | .host, j | .name, j => ∃ s, j = .str s
  | .port, j => ∃ n : Nat, n ≤ 65535 ∧ j = .ofNat n
  | .models, j => ∃ items, j = .arr items
  | .resources, j => NodeResources.Fits j
  | .status, j => ∃ s : NodeStatus, j = .str s.text ∨ j = .obj [(s.text, .null)]

/-- What a value says in a field. -/
def Holds : (f : Field) → Json → f.Value → Prop
  | .host, j, s | .name, j, s => j = .str s
  | .port, j, (n : Nat) => n ≤ 65535 ∧ j = .ofNat n
  | .models, j, names => ∃ items, j = .arr items ∧ Names items names
  | .resources, j, r => NodeResources.Fits j ∧ r = NodeResources.said j
  | .status, j, (s : NodeStatus) => j = .str s.text ∨ j = .obj [(s.text, .null)]

/-- Reads a field from the value at its key. -/
def read : (f : Field) → Json → Option f.Value
  | .host | .name => Json.asString?
  | .port => Json.asNat? maxPort
  | .models => modelNames?
  | .resources => NodeResources.ofJson?
  | .status => NodeStatus.ofJson?

end Field

/-- A field of a payload that has been read. -/
def get (p : NodePayload) : (f : Field) → Option f.Value
  | .host => p.host
  | .port => p.port
  | .name => p.name
  | .models => p.models
  | .resources => p.resources
  | .status => p.status

variable {payload other item value : Json} {name : String} {names : List String} {f : Field}

theorem ext_get {p q : NodePayload} (h : ∀ f, p.get f = q.get f) : p = q := by
  obtain ⟨host, port, name, models, resources, status⟩ := p
  obtain rfl : host = q.host := h .host
  obtain rfl : port = q.port := h .port
  obtain rfl : name = q.name := h .name
  obtain rfl : models = q.models := h .models
  obtain rfl : resources = q.resources := h .resources
  obtain rfl : status = q.status := h .status
  rfl

/-- A field is read from the value at its key, and from nothing else. -/
theorem get_ofJson (payload : Json) (f : Field) :
    (ofJson payload).get f = (payload.get? f.key).bind f.read := by
  cases f <;> rfl

/-- Payloads with the same value at a key say the same in its field. -/
theorem get_congr (h : other.get? f.key = payload.get? f.key) :
    (ofJson other).get f = (ofJson payload).get f := by
  rw [get_ofJson, get_ofJson, h]

/-! ### Models -/

theorem modelName?_eq_some_iff : modelName? item = some name ↔ IsModel item name := by
  unfold modelName? IsModel
  cases item with
  | str s => simp
  | obj members => simp [Option.bind_eq_some_iff, Json.asString?_eq_some_iff]
  | null | bool | num | arr => simp

theorem names_iff {items : List Json} : Names items names ↔ items.filterMap modelName? = names := by
  constructor
  · intro h
    induction h with
    | nil => rfl
    | named h _ ih => rw [List.filterMap_cons_some (modelName?_eq_some_iff.mpr h), ih]
    | leftOut h _ ih =>
        have hnone := Option.eq_none_iff_forall_ne_some.mpr fun name hname =>
          h name (modelName?_eq_some_iff.mp hname)
        rw [List.filterMap_cons_none hnone, ih]
  · rintro rfl
    induction items with
    | nil => exact .nil
    | cons item rest ih =>
        cases hname : modelName? item with
        | some name =>
            rw [List.filterMap_cons_some hname]
            exact .named (modelName?_eq_some_iff.mp hname) ih
        | none =>
            rw [List.filterMap_cons_none hname]
            refine .leftOut (fun name hmodel => ?_) ih
            rw [modelName?_eq_some_iff.mpr hmodel] at hname
            cases hname

theorem modelNames?_eq_some_iff :
    modelNames? value = some names ↔ ∃ items, value = .arr items ∧ Names items names := by
  unfold modelNames?
  cases value with
  | arr items => simp [Json.asArray?, names_iff]
  | null | bool | num | str | obj => simp [Json.asArray?]

/-! ### What is read -/

/-- A field is read as what the value says in it. -/
theorem Field.read_eq_some_iff {v : f.Value} : f.read value = some v ↔ f.Holds value v := by
  cases f with
  | host => exact Json.asString?_eq_some_iff
  | port => exact Json.asNat?_eq_some_iff
  | name => exact Json.asString?_eq_some_iff
  | models => exact modelNames?_eq_some_iff
  | resources => exact NodeResources.ofJson?_eq_some_iff
  | status => exact NodeStatus.ofJson?_eq_some_iff

/-- A value of the type of a field says something in it. -/
theorem Field.exists_holds_iff : (∃ v, f.Holds value v) ↔ f.Fits value := by
  cases f with
  | host => exact .rfl
  | port => exact .rfl
  | name => exact .rfl
  | models =>
      refine ⟨fun ⟨names, items, hitems, _⟩ => ⟨items, hitems⟩, fun ⟨items, hitems⟩ => ?_⟩
      exact ⟨items.filterMap modelName?, items, hitems, names_iff.mpr rfl⟩
  | resources => exact ⟨fun ⟨r, hfits, _⟩ => hfits, fun hfits => ⟨_, hfits, rfl⟩⟩
  | status => exact .rfl

theorem get_eq_some_iff {v : f.Value} : (ofJson payload).get f = some v ↔
    ∃ value, payload.get? f.key = some value ∧ f.Holds value v := by
  simp only [get_ofJson, Option.bind_eq_some_iff, Field.read_eq_some_iff]

theorem get_eq_none_iff : (ofJson payload).get f = none ↔
    ∀ value, payload.get? f.key = some value → ¬f.Fits value := by
  rw [Option.eq_none_iff_forall_ne_some]
  simp only [ne_eq, get_eq_some_iff, ← Field.exists_holds_iff]
  exact ⟨fun h value hvalue ⟨v, hv⟩ => h v ⟨value, hvalue, hv⟩,
    fun h v ⟨value, hvalue, hv⟩ => h value hvalue ⟨v, hv⟩⟩

/-- **One malformed field costs no other.**  Whatever is put at a key of a payload or taken away
from it, the fields of other keys are read as before, and so is the whole payload if the key is that
of no field; the field of the key itself is what the new value says, or absent.  A field is absent
exactly if its key is missing or has a value that is not of the type of the field, and otherwise it
holds what the value says: of a list of models, the names among the items, in their order. -/
theorem ofJson_reads_fields_apart (payload : Json) :
    (∀ (key : String) (value : Json) (f : Field), f.key ≠ key →
      (ofJson (payload.put key value)).get f = (ofJson payload).get f ∧
      (ofJson (payload.erase key)).get f = (ofJson payload).get f) ∧
    (∀ (key : String) (value : Json), (∀ f : Field, f.key ≠ key) →
      ofJson (payload.put key value) = ofJson payload ∧
      ofJson (payload.erase key) = ofJson payload) ∧
    (∀ (f : Field) (value : Json) (members : List (String × Json)), payload = .obj members →
      (∀ v, (ofJson (payload.put f.key value)).get f = some v ↔ f.Holds value v) ∧
      (ofJson (payload.erase f.key)).get f = none) ∧
    (∀ f : Field, (ofJson payload).get f = none ↔
      ∀ value, payload.get? f.key = some value → ¬f.Fits value) ∧
    ∀ (f : Field) (v : f.Value), (ofJson payload).get f = some v ↔
      ∃ value, payload.get? f.key = some value ∧ f.Holds value v := by
  have hput (key : String) (value : Json) (f : Field) (hne : f.key ≠ key) :
      (ofJson (payload.put key value)).get f = (ofJson payload).get f :=
    get_congr (Json.get?_put_of_ne hne value payload)
  have herase (key : String) (f : Field) (hne : f.key ≠ key) :
      (ofJson (payload.erase key)).get f = (ofJson payload).get f :=
    get_congr (Json.get?_erase_of_ne hne payload)
  refine ⟨fun key value f hne => ⟨hput key value f hne, herase key f hne⟩,
    fun key value hunknown => ⟨ext_get fun f => hput key value f (hunknown f),
      ext_get fun f => herase key f (hunknown f)⟩,
    fun f value members hobject => ⟨fun v => ?_, ?_⟩,
    fun f => get_eq_none_iff, fun f v => get_eq_some_iff⟩
  · rw [hobject, get_ofJson, Json.get?_put_self, Option.bind_some]
    exact Field.read_eq_some_iff
  · rw [get_ofJson, Json.get?_erase_self]
    rfl

/-- A port that is none costs the port and leaves the host. -/
theorem ofJson_reads_fields_apart_bad_port :
    let payload : Json := .obj [("host", .str "10.0.0.9"), ("port", .ofNat 8080)]
    let broken := payload.put "port" (.ofNat 65536)
    Field.key .host ≠ "port" ∧ (ofJson broken).host = (ofJson payload).host ∧
      (ofJson payload).host = some "10.0.0.9" ∧ (ofJson broken).port = none := by
  intro payload broken
  have hne : Field.key .host ≠ "port" := by decide
  obtain ⟨hother, -, hself, -, hvalue⟩ := ofJson_reads_fields_apart payload
  refine ⟨hne, (hother "port" (.ofNat 65536) .host hne).1,
    (hvalue .host "10.0.0.9").mpr ⟨.str "10.0.0.9", rfl, rfl⟩, ?_⟩
  refine Option.eq_none_iff_forall_ne_some.mpr fun port hport => ?_
  obtain ⟨hport, hvalue⟩ := ((hself .port (.ofNat 65536) _ rfl).1 port).mp hport
  cases hvalue
  exact absurd hport (by decide)

/-- A port that is none, a name that is no text and an item that names no model are left out. -/
example :
    let payload : Json := .obj [
      ("host", .str "10.0.0.9"), ("models", .arr [.obj [("name", .str "b")], .str "a", .ofNat 42]),
      ("name", .bool true), ("port", .ofNat 65536), ("status", .obj [("busy", .null)])]
    ofJson payload = { host := "10.0.0.9", models := ["b", "a"], status := some .busy } := by
  decide

end NodePayload

end InferenceRouting.Cluster
