import InferenceRouting.Breaker.Basic
import InferenceRouting.Cluster.StaticNode
import InferenceRouting.Cluster.Tracker
import InferenceRouting.Credential.Rotation
import InferenceRouting.Pool.Basic
import InferenceRouting.Http.Endpoint

/-!
# The configuration

A configuration has one section for each part of the library.  `Config.toSetting` writes it as a
tree and `Config.ofSetting?` reads a tree back; a section or field that is missing has its default.
The sections on the cluster and on credentials hold the fields of their tuning side by side with
their lists, so they can only be given as tables.
-/

namespace InferenceRouting

/-- Where the operators' interface listens. -/
structure ServerConfig where
  host : String := "0.0.0.0"
  port : Nat := 8090
  deriving DecidableEq, Repr

namespace ServerConfig

/-- Reads a section, in which every field may be missing. -/
def ofSetting? (s : Setting) : Option ServerConfig := do
  let fields ← s.record? ["host", "port"]
  let d : ServerConfig := {}
  some {
    host := ← fields.optional "host" Setting.asText? d.host
    port := ← fields.optional "port" (Setting.asNat? 65535) d.port }

/-- A section as it is written. -/
def toSetting (c : ServerConfig) : Setting :=
  .table [("host", .text c.host), ("port", .ofNat c.port)]

end ServerConfig

/-- How the program logs. -/
structure LoggingConfig where
  level : String := "info"
  json : Bool := false
  deriving DecidableEq, Repr

/-- What is handed to the log's writer. -/
structure LogOutput where
  serviceName : String := "fleet-router"
  json : Bool
  level : String
  deriving DecidableEq, Repr

namespace LoggingConfig

/-- Reads a section, in which every field may be missing. -/
def ofSetting? (s : Setting) : Option LoggingConfig := do
  let fields ← s.record? ["level", "json"]
  let d : LoggingConfig := {}
  some {
    level := ← fields.optional "level" Setting.asText? d.level
    json := ← fields.optional "json" Setting.asFlag? d.json }

/-- A section as it is written. -/
def toSetting (c : LoggingConfig) : Setting :=
  .table [("level", .text c.level), ("json", .flag c.json)]

/-- The output that a section asks for. -/
def output (c : LoggingConfig) : LogOutput :=
  { json := c.json, level := c.level }

end LoggingConfig

/-- Where nodes announce themselves. -/
structure DiscoveryConfig where
  enabled : Bool := true
  bindAddress : String := "0.0.0.0:7946"
  deriving DecidableEq, Repr

namespace DiscoveryConfig

/-- Reads a section, in which every field may be missing. -/
def ofSetting? (s : Setting) : Option DiscoveryConfig := do
  let fields ← s.record? ["enabled", "bind_addr"]
  let d : DiscoveryConfig := {}
  some {
    enabled := ← fields.optional "enabled" Setting.asFlag? d.enabled
    bindAddress := ← fields.optional "bind_addr" Setting.asText? d.bindAddress }

/-- A section as it is written. -/
def toSetting (c : DiscoveryConfig) : Setting :=
  .table [("enabled", .flag c.enabled), ("bind_addr", .text c.bindAddress)]

end DiscoveryConfig

/-- The nodes known in advance, and how the fleet is watched. -/
structure ClusterConfig where
  membership : Cluster.MembershipConfig := {}
  nodes : List Cluster.StaticNode := []
  discovery : DiscoveryConfig := {}
  deriving DecidableEq, Repr

namespace ClusterConfig

/-- Reads a section, in which every field may be missing. -/
def ofSetting? (s : Setting) : Option ClusterConfig := do
  let fields ← s.table?
  let nodes ← fields.optional "nodes" (Setting.asList? Cluster.StaticNode.ofSetting?) []
  let discovery ← fields.optional "discovery" DiscoveryConfig.ofSetting? {}
  let membership ← Cluster.MembershipConfig.ofFields? fields
  some { membership, nodes, discovery }

/-- A section as it is written. -/
def toSetting (c : ClusterConfig) : Setting :=
  .table (c.membership.members ++ [
    ("nodes", .list (c.nodes.map Cluster.StaticNode.toSetting)),
    ("discovery", c.discovery.toSetting)])

end ClusterConfig

/-- The credentials, and how they take turns. -/
structure CredentialsConfig where
  rotation : Credential.RotationConfig := {}
  entries : List Credential.Entry := []
  deriving DecidableEq, Repr

namespace CredentialsConfig

/-- Reads a section, in which every field may be missing. -/
def ofSetting? (s : Setting) : Option CredentialsConfig := do
  let fields ← s.table?
  let entries ← fields.optional "entries" (Setting.asList? Credential.Entry.ofSetting?) []
  let rotation ← Credential.RotationConfig.ofFields? fields
  some { rotation, entries }

/-- A section as it is written. -/
def toSetting (c : CredentialsConfig) : Setting :=
  .table (c.rotation.members ++ [
    ("entries", .list (c.entries.map Credential.Entry.toSetting))])

end CredentialsConfig

/-- The whole configuration. -/
structure Config where
  server : ServerConfig := {}
  logging : LoggingConfig := {}
  breaker : BreakerConfig := {}
  pool : PoolConfig := {}
  http : Http.HttpConfig := {}
  cluster : ClusterConfig := {}
  credentials : CredentialsConfig := {}
  deriving DecidableEq, Repr

namespace Config

/-- Reads a configuration, in which every section may be missing. -/
def ofSetting? (s : Setting) : Option Config := do
  let fields ← s.record? ["server", "logging", "breaker", "pool", "upstream", "cluster",
    "credentials"]
  some {
    server := ← fields.optional "server" ServerConfig.ofSetting? {}
    logging := ← fields.optional "logging" LoggingConfig.ofSetting? {}
    breaker := ← fields.optional "breaker" BreakerConfig.ofSetting? {}
    pool := ← fields.optional "pool" PoolConfig.ofSetting? {}
    http := ← fields.optional "upstream" Http.HttpConfig.ofSetting? {}
    cluster := ← fields.optional "cluster" ClusterConfig.ofSetting? {}
    credentials := ← fields.optional "credentials" CredentialsConfig.ofSetting? {} }

/-- A configuration as it is written. -/
def toSetting (c : Config) : Setting :=
  .table [
    ("server", c.server.toSetting),
    ("logging", c.logging.toSetting),
    ("breaker", c.breaker.toSetting),
    ("pool", c.pool.toSetting),
    ("upstream", c.http.toSetting),
    ("cluster", c.cluster.toSetting),
    ("credentials", c.credentials.toSetting)]

end Config

end InferenceRouting
