import InferenceRouting.Config.Layers
import InferenceRouting.Proofs.Setting.Absent
import InferenceRouting.Proofs.Setting.Overlay

/-!
# The export of the configuration

A configuration that has been written and is laid over the defaults is read back as it was, whether
or not the format can say that a value is absent.
-/

namespace InferenceRouting

namespace Setting

/-- A time that can be written without loss: in whole seconds, and not too many of them. -/
def IsSeconds (ms : Nat) : Prop := 1000 ∣ ms ∧ ms / 1000 ≤ Json.maxNat64

instance (ms : Nat) : Decidable (IsSeconds ms) := inferInstanceAs (Decidable (_ ∧ _))

/-- A number in its range is read as it was written. -/
theorem asNat?_ofNat {bound n : Nat} (h : n ≤ bound) : (ofNat n).asNat? bound = some n := by
  simp only [ofNat, asNat?]
  rw [if_pos ⟨Int.natCast_nonneg n, Int.ofNat_le.mpr h⟩, Int.toNat_natCast]

/-- A time in whole seconds is read as it was written. -/
theorem asMillis?_ofMillis {ms : Nat} (h : IsSeconds ms) : (ofMillis ms).asMillis? = some ms := by
  rw [asMillis?, ofMillis, asNat?_ofNat h.2, Option.map_some, Nat.div_mul_cancel h.1]

/-- A number is read only up to its bound. -/
theorem le_of_asNat? {bound n : Nat} {s : Setting} (h : s.asNat? bound = some n) : n ≤ bound := by
  cases s with
  | integer i =>
    rw [asNat?] at h
    split at h
    · obtain rfl := Option.some.inj h
      omega
    · cases h
  | _ => cases h

/-- A time that is read is one of whole seconds. -/
theorem isSeconds_of_asMillis? {ms : Nat} {s : Setting} (h : s.asMillis? = some ms) :
    IsSeconds ms := by
  obtain ⟨seconds, hseconds, rfl⟩ := Option.map_eq_some_iff.mp h
  refine ⟨Nat.dvd_mul_left .., ?_⟩
  rw [Nat.mul_div_cancel _ (by decide)]
  exact le_of_asNat? hseconds

/-- A field that is there is read. -/
theorem Fields.optional_of_found {α : Type} {fields : Fields} {name : String} {s : Setting}
    {read : Setting → Option α} {default a : α} (hs : fields name = some s) (ha : read s = some a) :
    fields.optional name read default = some a := by
  rw [Fields.optional, hs]
  exact ha

/-- A field that is missing has its default. -/
theorem Fields.optional_of_missing {α : Type} {fields : Fields} {name : String}
    {read : Setting → Option α} {default : α} (hs : fields name = none) :
    fields.optional name read default = some default := by
  rw [Fields.optional, hs]

/-- What holds of all that is read for a field and of its default holds of the field. -/
theorem Fields.of_optional {α : Type} {P : α → Prop} {fields : Fields} {name : String}
    {read : Setting → Option α} {default a : α}
    (h : fields.optional name read default = some a) (hread : ∀ s, read s = some a → P a)
    (hdefault : P default) : P a := by
  rw [Fields.optional] at h
  split at h
  · exact hread _ h
  · obtain rfl := Option.some.inj h
    exact hdefault

/-- A field that is a number is in its range if its default is. -/
theorem Fields.le_of_optional {fields : Fields} {name : String} {bound default n : Nat}
    (h : fields.optional name (asNat? bound) default = some n) (hdefault : default ≤ bound) :
    n ≤ bound :=
  Fields.of_optional (P := (· ≤ bound)) h (fun _ => le_of_asNat?) hdefault

/-- A field that is a time is in whole seconds if its default is. -/
theorem Fields.isSeconds_of_optional {fields : Fields} {name : String} {default ms : Nat}
    (h : fields.optional name asMillis? default = some ms) (hdefault : IsSeconds default) :
    IsSeconds ms :=
  Fields.of_optional (P := IsSeconds) h (fun _ => isSeconds_of_asMillis?) hdefault

/-- Every item of a list that is read has been read. -/
theorem exists_of_asList? {α : Type} {read : Setting → Option α} {s : Setting} {as : List α}
    (h : s.asList? read = some as) : ∀ a ∈ as, ∃ item, read item = some a := by
  cases s with
  | list items =>
    rw [asList?] at h
    induction items generalizing as with
    | nil =>
      obtain rfl := Option.some.inj h
      simp
    | cons item rest ih =>
      simp only [List.mapM_cons, bind, pure, Option.bind_eq_some_iff, Option.some.injEq] at h
      obtain ⟨a, ha, bs, hbs, rfl⟩ := h
      intro b hb
      obtain rfl | hb := List.mem_cons.mp hb
      · exact ⟨item, ha⟩
      · exact ih hbs b hb
  | _ => cases h

/-- A text that may be absent is read as it was written. -/
theorem asOption?_ofOption_text (text : Option String) :
    (ofOption .text text).asOption? asText? = some text := by
  cases text <;> rfl

/-- A list is read as it was written if its items are. -/
theorem asList?_map {α : Type} {read : Setting → Option α} {write : α → Setting} {as : List α}
    (h : ∀ a ∈ as, read (write a) = some a) : (list (as.map write)).asList? read = some as := by
  rw [asList?]
  induction as with
  | nil => rfl
  | cons a rest ih =>
    rw [List.map_cons, List.mapM_cons, h a (List.mem_cons_self ..),
      ih fun b hb => h b (List.mem_cons_of_mem _ hb)]
    rfl

end Setting

open Setting

namespace ServerConfig

/-- A section whose numbers are in the ranges of their fields. -/
structure Fits (c : ServerConfig) : Prop where
  port : c.port ≤ 65535

/-- A section within its ranges is read as it was written. -/
theorem ofSetting?_toSetting {c : ServerConfig} (h : c.Fits) : ofSetting? c.toSetting = some c := by
  simp only [ofSetting?, bind, Option.bind_eq_some_iff]
  exact ⟨_, rfl, _, Fields.optional_of_found rfl rfl,
    _, Fields.optional_of_found rfl (asNat?_ofNat h.port), rfl⟩

/-- A section that is read is within its ranges. -/
theorem fits_of_ofSetting? {s : Setting} {c : ServerConfig} (h : ofSetting? s = some c) :
    c.Fits := by
  simp only [ofSetting?, bind, Option.bind_eq_some_iff] at h
  obtain ⟨fields, -, host, -, port, hport, ⟨⟩⟩ := h
  exact ⟨Fields.le_of_optional hport (by decide)⟩

end ServerConfig

/-- This section has texts only, and is always read as it was written. -/
theorem LoggingConfig.ofSetting?_toSetting (c : LoggingConfig) :
    ofSetting? c.toSetting = some c := by
  simp only [ofSetting?, bind, Option.bind_eq_some_iff]
  exact ⟨_, rfl, _, Fields.optional_of_found rfl rfl, _, Fields.optional_of_found rfl rfl, rfl⟩

/-- So is this one. -/
theorem DiscoveryConfig.ofSetting?_toSetting (c : DiscoveryConfig) :
    ofSetting? c.toSetting = some c := by
  simp only [ofSetting?, bind, Option.bind_eq_some_iff]
  exact ⟨_, rfl, _, Fields.optional_of_found rfl rfl, _, Fields.optional_of_found rfl rfl, rfl⟩

namespace BreakerConfig

/-- A section whose numbers are in the ranges of their fields and whose times are in whole
seconds. -/
structure Fits (c : BreakerConfig) : Prop where
  failureThreshold : c.failureThreshold ≤ maxNat32
  resetTimeout : IsSeconds c.resetTimeout
  halfOpenMaxAttempts : c.halfOpenMaxAttempts ≤ maxNat32
  monitorWindow : IsSeconds c.monitorWindow

theorem ofSetting?_toSetting {c : BreakerConfig} (h : c.Fits) :
    ofSetting? c.toSetting = some c := by
  simp only [ofSetting?, bind, Option.bind_eq_some_iff]
  exact ⟨_, rfl, _, Fields.optional_of_found rfl (asNat?_ofNat h.failureThreshold),
    _, Fields.optional_of_found rfl (asMillis?_ofMillis h.resetTimeout),
    _, Fields.optional_of_found rfl (asNat?_ofNat h.halfOpenMaxAttempts),
    _, Fields.optional_of_found rfl (asMillis?_ofMillis h.monitorWindow), rfl⟩

theorem fits_of_ofSetting? {s : Setting} {c : BreakerConfig} (h : ofSetting? s = some c) :
    c.Fits := by
  simp only [ofSetting?, bind, Option.bind_eq_some_iff] at h
  obtain ⟨fields, -, threshold, hthreshold, reset, hreset, attempts, hattempts, window, hwindow,
    ⟨⟩⟩ := h
  exact ⟨Fields.le_of_optional hthreshold (by decide), Fields.isSeconds_of_optional hreset (by decide),
    Fields.le_of_optional hattempts (by decide), Fields.isSeconds_of_optional hwindow (by decide)⟩

end BreakerConfig

namespace PoolConfig

/-- A section whose numbers are in the ranges of their fields and whose times are in whole
seconds. -/
structure Fits (c : PoolConfig) : Prop where
  maxSize : c.maxSize ≤ Json.maxNat64
  minSize : c.minSize ≤ Json.maxNat64
  maxIdle : IsSeconds c.maxIdle
  acquireTimeout : IsSeconds c.acquireTimeout
  healthInterval : IsSeconds c.healthInterval

theorem ofSetting?_toSetting {c : PoolConfig} (h : c.Fits) : ofSetting? c.toSetting = some c := by
  simp only [ofSetting?, bind, Option.bind_eq_some_iff]
  exact ⟨_, rfl, _, Fields.optional_of_found rfl (asNat?_ofNat h.maxSize),
    _, Fields.optional_of_found rfl (asNat?_ofNat h.minSize),
    _, Fields.optional_of_found rfl (asMillis?_ofMillis h.maxIdle),
    _, Fields.optional_of_found rfl (asMillis?_ofMillis h.acquireTimeout),
    _, Fields.optional_of_found rfl (asMillis?_ofMillis h.healthInterval),
    _, Fields.optional_of_found rfl rfl, rfl⟩

theorem fits_of_ofSetting? {s : Setting} {c : PoolConfig} (h : ofSetting? s = some c) :
    c.Fits := by
  simp only [ofSetting?, bind, Option.bind_eq_some_iff] at h
  obtain ⟨fields, -, max, hmax, min, hmin, idle, hidle, acquire, hacquire, health, hhealth, url, -,
    ⟨⟩⟩ := h
  exact ⟨Fields.le_of_optional hmax (by decide), Fields.le_of_optional hmin (by decide),
    Fields.isSeconds_of_optional hidle (by decide),
    Fields.isSeconds_of_optional hacquire (by decide),
    Fields.isSeconds_of_optional hhealth (by decide)⟩

end PoolConfig

namespace Http.HttpConfig

/-- A section whose time is in whole seconds. -/
structure Fits (c : HttpConfig) : Prop where
  requestTimeout : IsSeconds c.requestTimeout

theorem ofSetting?_toSetting {c : HttpConfig} (h : c.Fits) : ofSetting? c.toSetting = some c := by
  simp only [ofSetting?, bind, Option.bind_eq_some_iff]
  exact ⟨_, rfl, _, Fields.optional_of_found rfl rfl, _, Fields.optional_of_found rfl rfl,
    _, Fields.optional_of_found rfl (asMillis?_ofMillis h.requestTimeout), rfl⟩

theorem fits_of_ofSetting? {s : Setting} {c : HttpConfig} (h : ofSetting? s = some c) :
    c.Fits := by
  simp only [ofSetting?, bind, Option.bind_eq_some_iff] at h
  obtain ⟨fields, -, chat, -, liveness, -, timeout, htimeout, ⟨⟩⟩ := h
  exact ⟨Fields.isSeconds_of_optional htimeout (by decide)⟩

end Http.HttpConfig

namespace Cluster.StaticNode

/-- A node whose port is in the range of its field. -/
structure Fits (n : StaticNode) : Prop where
  port : n.port ≤ 65535

/-- A node within its ranges is read as it was written. -/
theorem ofSetting?_toSetting {n : StaticNode} (h : n.Fits) : ofSetting? n.toSetting = some n := by
  have hmodels : (list (n.models.map text)).asList? asText? = some n.models :=
    asList?_map fun _ _ => rfl
  simp only [ofSetting?, bind, Option.bind_eq_some_iff]
  exact ⟨_, rfl, _, rfl, _, asNat?_ofNat h.port,
    _, Fields.optional_of_found rfl (asOption?_ofOption_text n.name),
    _, Fields.optional_of_found rfl hmodels, rfl⟩

/-- A node is read back although its name is left out when it has none. -/
theorem ofSetting?_withoutAbsent {n : StaticNode} (h : n.Fits) :
    ofSetting? n.toSetting.withoutAbsent = some n := by
  obtain ⟨host, port, name, models⟩ := n
  cases name with
  | some name =>
    have hsame : (toSetting ⟨host, port, some name, models⟩).withoutAbsent =
        toSetting ⟨host, port, some name, models⟩ := by
      simp [toSetting, ofOption, ofNat, Setting.withoutAbsent, membersWithoutAbsent,
        itemsWithoutAbsent_eq_map]
    rw [hsame, ofSetting?_toSetting h]
  | none =>
    have hleft : (toSetting ⟨host, port, none, models⟩).withoutAbsent =
        .table [("host", .text host), ("port", .ofNat port),
          ("models", .list (models.map .text))] := by
      simp [toSetting, ofOption, ofNat, Setting.withoutAbsent, membersWithoutAbsent,
        itemsWithoutAbsent_eq_map]
    have hmodels : (list (models.map text)).asList? asText? = some models :=
      asList?_map fun _ _ => rfl
    rw [hleft]
    simp only [ofSetting?, bind, Option.bind_eq_some_iff]
    exact ⟨_, rfl, _, rfl, _, asNat?_ofNat h.port, _, Fields.optional_of_missing rfl,
      _, Fields.optional_of_found rfl hmodels, rfl⟩

/-- A node that is read is within its ranges. -/
theorem fits_of_ofSetting? {s : Setting} {n : StaticNode} (h : ofSetting? s = some n) :
    n.Fits := by
  simp only [ofSetting?, bind, Option.bind_eq_some_iff] at h
  obtain ⟨fields, -, host, -, port, hport, name, -, models, -, ⟨⟩⟩ := h
  obtain ⟨value, -, hvalue⟩ := Option.bind_eq_some_iff.mp hport
  exact ⟨le_of_asNat? hvalue⟩

end Cluster.StaticNode

namespace Credential.Entry

/-- A credential is read as it was written, its key included. -/
theorem ofSetting?_toSetting (e : Entry) : ofSetting? e.toSetting = some e := by
  simp only [ofSetting?, bind, Option.bind_eq_some_iff]
  exact ⟨_, rfl, _, rfl, _, Fields.optional_of_found rfl (asOption?_ofOption_text e.model), rfl⟩

/-- An entry is read back although its model is left out when it has none. -/
theorem ofSetting?_withoutAbsent (e : Entry) : ofSetting? e.toSetting.withoutAbsent = some e := by
  obtain ⟨key, model⟩ := e
  cases model with
  | some model => exact ofSetting?_toSetting ⟨key, some model⟩
  | none => rfl

end Credential.Entry

namespace ClusterConfig

/-- A section whose numbers are in the ranges of their fields and whose times are in whole
seconds. -/
structure Fits (c : ClusterConfig) : Prop where
  heartbeatInterval : IsSeconds c.membership.heartbeatInterval
  nodeTimeout : IsSeconds c.membership.nodeTimeout
  nodes : ∀ n ∈ c.nodes, n.Fits

/-- A section as it is written, each node in a form of its own. -/
def written (node : Cluster.StaticNode → Setting) (c : ClusterConfig) : Setting :=
  .table (c.membership.members ++ [
    ("nodes", .list (c.nodes.map node)), ("discovery", c.discovery.toSetting)])

/-- The fields of the tuning are found among those of the section. -/
theorem ofSetting?_written {c : ClusterConfig} {node : Cluster.StaticNode → Setting} (h : c.Fits)
    (hnode : ∀ n ∈ c.nodes, Cluster.StaticNode.ofSetting? (node n) = some n) :
    ofSetting? (c.written node) = some c := by
  simp only [ofSetting?, Cluster.MembershipConfig.ofFields?, bind, Option.bind_eq_some_iff]
  exact ⟨_, rfl, _, Fields.optional_of_found rfl (asList?_map hnode),
    _, Fields.optional_of_found rfl (DiscoveryConfig.ofSetting?_toSetting c.discovery), _,
    ⟨_, Fields.optional_of_found rfl (asMillis?_ofMillis h.heartbeatInterval),
      _, Fields.optional_of_found rfl (asMillis?_ofMillis h.nodeTimeout), rfl⟩, rfl⟩

/-- A section that is read is within its ranges, and so is every node in it. -/
theorem fits_of_ofSetting? {s : Setting} {c : ClusterConfig} (h : ofSetting? s = some c) :
    c.Fits := by
  simp only [ofSetting?, Cluster.MembershipConfig.ofFields?, bind, Option.bind_eq_some_iff] at h
  obtain ⟨fields, -, nodes, hnodes, discovery, -, membership,
    ⟨interval, hinterval, timeout, htimeout, ⟨⟩⟩, ⟨⟩⟩ := h
  refine ⟨Fields.isSeconds_of_optional hinterval (by decide),
    Fields.isSeconds_of_optional htimeout (by decide),
    Fields.of_optional (P := fun nodes => ∀ n ∈ nodes, n.Fits) hnodes ?_ (by simp)⟩
  intro s hs n hn
  obtain ⟨item, hitem⟩ := exists_of_asList? hs n hn
  exact Cluster.StaticNode.fits_of_ofSetting? hitem

end ClusterConfig

namespace CredentialsConfig

/-- A section whose number is in the range of its field and whose time is in whole seconds. -/
structure Fits (c : CredentialsConfig) : Prop where
  maxFailures : c.rotation.maxFailures ≤ maxNat32
  cooldown : IsSeconds c.rotation.cooldown

/-- A section as it is written, each entry in a form of its own. -/
def written (entry : Credential.Entry → Setting) (c : CredentialsConfig) : Setting :=
  .table (c.rotation.members ++ [("entries", .list (c.entries.map entry))])

/-- The fields of the tuning are found among those of the section. -/
theorem ofSetting?_written {c : CredentialsConfig} {entry : Credential.Entry → Setting}
    (h : c.Fits) (hentry : ∀ e ∈ c.entries, Credential.Entry.ofSetting? (entry e) = some e) :
    ofSetting? (c.written entry) = some c := by
  simp only [ofSetting?, Credential.RotationConfig.ofFields?, bind, Option.bind_eq_some_iff]
  exact ⟨_, rfl, _, Fields.optional_of_found rfl (asList?_map hentry), _,
    ⟨_, Fields.optional_of_found rfl (asNat?_ofNat h.maxFailures),
      _, Fields.optional_of_found rfl (asMillis?_ofMillis h.cooldown),
      _, Fields.optional_of_found rfl rfl, rfl⟩, rfl⟩

/-- A section that is read is within its ranges; its credentials have none. -/
theorem fits_of_ofSetting? {s : Setting} {c : CredentialsConfig} (h : ofSetting? s = some c) :
    c.Fits := by
  simp only [ofSetting?, Credential.RotationConfig.ofFields?, bind, Option.bind_eq_some_iff] at h
  obtain ⟨fields, -, entries, -, rotation,
    ⟨failures, hfailures, cooldown, hcooldown, model, -, ⟨⟩⟩, ⟨⟩⟩ := h
  exact ⟨Fields.le_of_optional hfailures (by decide),
    Fields.isSeconds_of_optional hcooldown (by decide)⟩

end CredentialsConfig

namespace Config

/-- A configuration whose numbers are in the ranges of their fields and whose times are in whole
seconds. -/
structure Fits (c : Config) : Prop where
  server : c.server.Fits
  breaker : c.breaker.Fits
  pool : c.pool.Fits
  http : c.http.Fits
  cluster : c.cluster.Fits
  credentials : c.credentials.Fits

/-- A configuration as it is written, each node and each entry in a form of its own. -/
def written (node : Cluster.StaticNode → Setting) (entry : Credential.Entry → Setting)
    (c : Config) : Setting :=
  .table [
    ("server", c.server.toSetting),
    ("logging", c.logging.toSetting),
    ("breaker", c.breaker.toSetting),
    ("pool", c.pool.toSetting),
    ("upstream", c.http.toSetting),
    ("cluster", c.cluster.written node),
    ("credentials", c.credentials.written entry)]

/-- An export writes nodes and credentials with all their members. -/
theorem toSetting_eq (c : Config) :
    c.toSetting = c.written Cluster.StaticNode.toSetting Credential.Entry.toSetting := rfl

/-- Only nodes and entries have members that may be absent. -/
theorem withoutAbsent_toSetting (c : Config) :
    c.toSetting.withoutAbsent =
      c.written (fun n => n.toSetting.withoutAbsent) fun e => e.toSetting.withoutAbsent := by
  simp [toSetting, written, Setting.withoutAbsent, membersWithoutAbsent, itemsWithoutAbsent_eq_map,
    ServerConfig.toSetting, LoggingConfig.toSetting, BreakerConfig.toSetting, PoolConfig.toSetting,
    Http.HttpConfig.toSetting, ClusterConfig.toSetting, ClusterConfig.written,
    CredentialsConfig.toSetting, CredentialsConfig.written, Cluster.MembershipConfig.members,
    Credential.RotationConfig.members, DiscoveryConfig.toSetting, ofNat, ofMillis,
    Function.comp_def]

variable {c : Config} {node : Cluster.StaticNode → Setting} {entry : Credential.Entry → Setting}

/-- What is written has all the members of the defaults, in their order. -/
theorem covers_written : covers (toSetting {}) (c.written node entry) = true := by
  rfl

/-- A configuration is read as it was written, however its nodes and credentials were written, if
these are read back. -/
theorem ofSetting?_written (hfits : c.Fits)
    (hnode : ∀ n ∈ c.cluster.nodes, Cluster.StaticNode.ofSetting? (node n) = some n)
    (hentry : ∀ e ∈ c.credentials.entries, Credential.Entry.ofSetting? (entry e) = some e) :
    ofSetting? (c.written node entry) = some c := by
  simp only [ofSetting?, bind, Option.bind_eq_some_iff]
  exact ⟨_, rfl, _, Fields.optional_of_found rfl (ServerConfig.ofSetting?_toSetting hfits.server),
    _, Fields.optional_of_found rfl (LoggingConfig.ofSetting?_toSetting c.logging),
    _, Fields.optional_of_found rfl (BreakerConfig.ofSetting?_toSetting hfits.breaker),
    _, Fields.optional_of_found rfl (PoolConfig.ofSetting?_toSetting hfits.pool),
    _, Fields.optional_of_found rfl (Http.HttpConfig.ofSetting?_toSetting hfits.http),
    _, Fields.optional_of_found rfl (ClusterConfig.ofSetting?_written hfits.cluster hnode),
    _, Fields.optional_of_found rfl (CredentialsConfig.ofSetting?_written hfits.credentials hentry),
    rfl⟩

/-- An accepted configuration that has been written is read back over the defaults. -/
theorem ofLayers_written (hfits : c.Fits) (hvalid : c.validate = .ok ())
    (hnode : ∀ n ∈ c.cluster.nodes, Cluster.StaticNode.ofSetting? (node n) = some n)
    (hentry : ∀ e ∈ c.credentials.entries, Credential.Entry.ofSetting? (entry e) = some e) :
    ofLayers [c.written node entry] = .ok c := by
  rw [ofLayers, List.foldl_cons, List.foldl_nil, merge_of_covers _ _ covers_written,
    ofSetting?_written hfits hnode hentry]
  simp only [hvalid]

/-- An export is accepted and gives the configuration. -/
theorem ofLayers_toSetting (hfits : c.Fits) (hvalid : c.validate = .ok ()) :
    ofLayers [c.toSetting] = .ok c := by
  rw [toSetting_eq]
  exact ofLayers_written hfits hvalid
    (fun n hn => Cluster.StaticNode.ofSetting?_toSetting (hfits.cluster.nodes n hn))
    fun e _ => Credential.Entry.ofSetting?_toSetting e

/-- So is an export without the members that are absent. -/
theorem ofLayers_withoutAbsent (hfits : c.Fits) (hvalid : c.validate = .ok ()) :
    ofLayers [c.toSetting.withoutAbsent] = .ok c := by
  rw [withoutAbsent_toSetting]
  exact ofLayers_written hfits hvalid
    (fun n hn => Cluster.StaticNode.ofSetting?_withoutAbsent (hfits.cluster.nodes n hn))
    fun e _ => Credential.Entry.ofSetting?_withoutAbsent e

/-- **The export loses nothing.**  An accepted configuration whose times are in whole seconds, laid
over the defaults as it is written, is loaded as it was, nodes and entries included.  Nor does it
matter that a format leaves out what is absent. -/
theorem ofLayers_export (c : Config) (hfits : c.Fits) (hvalid : c.validate = .ok ()) :
    ofLayers [c.toSetting] = .ok c ∧ ofLayers [c.toSetting.withoutAbsent] = .ok c :=
  ⟨ofLayers_toSetting hfits hvalid, ofLayers_withoutAbsent hfits hvalid⟩

/-- A configuration with a time of zero and with the longest time, a node without a name and an
entry without a model. -/
def unusual : Config where
  breaker := { resetTimeout := 0, monitorWindow := 18446744073709551615000 }
  cluster := { nodes := [
    { host := "10.0.0.7", port := 11434, models := ["llama3"] },
    { host := "10.0.0.8", port := 65535, name := some "big" }] }
  credentials := { rotation := { cooldown := 0 }, entries := [⟨⟨"sk-1"⟩, none⟩] }

theorem ofLayers_export_unusual :
    (unusual.Fits ∧ unusual.validate = .ok ()) ∧
      ofLayers [unusual.toSetting] = .ok unusual ∧
        ofLayers [unusual.toSetting.withoutAbsent] = .ok unusual := by
  have hnodes : ∀ n ∈ unusual.cluster.nodes, n.Fits := by
    intro n hn
    have hport : ∀ n ∈ unusual.cluster.nodes, n.port ≤ 65535 := by decide
    exact ⟨hport n hn⟩
  have hfits : unusual.Fits :=
    ⟨⟨by decide⟩, ⟨by decide, by decide, by decide, by decide⟩,
      ⟨by decide, by decide, by decide, by decide, by decide⟩, ⟨by decide⟩,
      ⟨by decide, by decide, hnodes⟩, ⟨by decide, by decide⟩⟩
  have hvalid : unusual.validate = .ok () := by rfl
  exact ⟨⟨hfits, hvalid⟩, ofLayers_export unusual hfits hvalid⟩

/-- Whatever has been read can be written. -/
theorem fits_of_ofSetting? {s : Setting} {c : Config} (h : ofSetting? s = some c) : c.Fits := by
  simp only [ofSetting?, bind, Option.bind_eq_some_iff] at h
  obtain ⟨fields, -, server, hserver, logging, -, breaker, hbreaker, pool, hpool, http, hhttp,
    cluster, hcluster, credentials, hcredentials, ⟨⟩⟩ := h
  have hdefault : ({} : Config).Fits :=
    ⟨⟨by decide⟩, ⟨by decide, by decide, by decide, by decide⟩,
      ⟨by decide, by decide, by decide, by decide, by decide⟩, ⟨by decide⟩,
      ⟨by decide, by decide, by simp⟩, ⟨by decide, by decide⟩⟩
  exact {
    server := Fields.of_optional (P := ServerConfig.Fits) hserver
      (fun _ => ServerConfig.fits_of_ofSetting?) hdefault.server
    breaker := Fields.of_optional (P := BreakerConfig.Fits) hbreaker
      (fun _ => BreakerConfig.fits_of_ofSetting?) hdefault.breaker
    pool := Fields.of_optional (P := PoolConfig.Fits) hpool
      (fun _ => PoolConfig.fits_of_ofSetting?) hdefault.pool
    http := Fields.of_optional (P := Http.HttpConfig.Fits) hhttp
      (fun _ => Http.HttpConfig.fits_of_ofSetting?) hdefault.http
    cluster := Fields.of_optional (P := ClusterConfig.Fits) hcluster
      (fun _ => ClusterConfig.fits_of_ofSetting?) hdefault.cluster
    credentials := Fields.of_optional (P := CredentialsConfig.Fits) hcredentials
      (fun _ => CredentialsConfig.fits_of_ofSetting?) hdefault.credentials }

/-- What has been loaded can be exported: all its times came in whole seconds. -/
theorem export_of_ofLayers {layers : List Setting} (h : ofLayers layers = .ok c) :
    ofLayers [c.toSetting] = .ok c ∧ ofLayers [c.toSetting.withoutAbsent] = .ok c := by
  rw [ofLayers] at h
  split at h
  · cases h
  · next d hd =>
    split at h
    · cases h
    · next hvalid =>
      obtain rfl := Except.ok.inj h
      have hfits := fits_of_ofSetting? hd
      exact ⟨ofLayers_toSetting hfits hvalid, ofLayers_withoutAbsent hfits hvalid⟩

/-- A TOML document is that of the tree without what is absent. -/
theorem toToml?_eq (c : Config) : c.toToml? = Toml.write? c.toSetting.withoutAbsent :=
  (Toml.write?_withoutAbsent c.toSetting).symm

end Config

end InferenceRouting
