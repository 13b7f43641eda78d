import InferenceRouting.Config.Validation
import InferenceRouting.Setting.Toml.Reader
import InferenceRouting.Setting.Toml.Writer
import InferenceRouting.Setting.Variable
import InferenceRouting.Setting.Yaml.Reader
import InferenceRouting.Setting.Yaml.Writer

/-!
# Loading and exporting the configuration

The configuration is put together from layers, a later one over an earlier one: the defaults, a
TOML file, a YAML file, and environment variables.  A file that does not exist is an empty layer.
-/

namespace InferenceRouting.Config

/-- Why no configuration was loaded. -/
inductive LoadError where
  /-- The layers cannot be read as a configuration. -/
  | unreadable
  /-- The configuration is not accepted. -/
  | rejected (error : RoutingError)

/-- The configuration of trees laid over the defaults and over each other, in order. -/
def ofLayers (layers : List Setting) : Except LoadError Config :=
  match ofSetting? (layers.foldl Setting.merge (toSetting {})) with
  | none => .error .unreadable
  | some c =>
    match c.validate with
    | .error e => .error (.rejected e)
    | .ok () => .ok c

/-- The variable that names the TOML file. -/
def fileVariable : String := "FLEET_CONFIG"

/-- The TOML file, if no other is named. -/
def tomlFile : String := "fleet.toml"

/-- The YAML file. -/
def yamlFile : String := "fleet.yaml"

/-- The tree of a file that may be missing. -/
def readFile? (read? : String → Option Setting) (file : Option String) : Option Setting :=
  match file with
  | none => some (.table [])
  | some text =>
    match read? text with
    | some (.table members) => some (.table members)
    | _ => none

/-- The layers over the defaults. -/
def layers? (files : String → Option String) (env : Environment) : Option (List Setting) := do
  let toml ← readFile? Toml.read? (files ((env.value? fileVariable).getD tomlFile))
  let yaml ← readFile? Yaml.read? (files yamlFile)
  some [toml, yaml, Variable.tree env]

/-- Loads the configuration. -/
def load (files : String → Option String) (env : Environment) : Except LoadError Config :=
  match layers? files env with
  | some layers => ofLayers layers
  | none => .error .unreadable

/-- The configuration as a TOML document; `none` when a number is too large for the format. -/
def toToml? (c : Config) : Option String :=
  Toml.write? c.toSetting

/-- The configuration as a YAML document. -/
def toYaml (c : Config) : String :=
  Yaml.write c.toSetting

end InferenceRouting.Config
