import InferenceRouting.Credential.Secret
import InferenceRouting.Environment
import InferenceRouting.Setting.Basic
import InferenceRouting.Error
import InferenceRouting.Text.Blank
import InferenceRouting.Text.Decimal

/-!
# Credential slots and where they come from

A slot is a secret with the model it is meant for.  Slots come from exactly one source: the entries
of the configuration; else the numbered environment variables `FLEET_CREDENTIAL_1`, `_2`, … with
their models in `FLEET_CREDENTIAL_1_MODEL`, …; else the pair of legacy variables.

Blank secrets are dropped and the others keep their entry numbers.  A number that is missing below
the greatest one in use is an error: `firstMissing?` looks for it, and needs at most one look more
than there are numbers.
-/

namespace InferenceRouting.Credential

/-- Where a slot comes from. -/
inductive Source where
  | config
  | numbered
  | legacy
  deriving DecidableEq, Repr

/-- The name of a source. -/
def Source.text : Source → String
  | .config => "config"
  | .numbered => "numbered"
  | .legacy => "legacy"

/-- An entry of the configuration. -/
structure Entry where
  key : Secret
  model : Option String
  deriving DecidableEq, Repr

namespace Entry

/-- Reads an entry: a secret, and a model that may be missing or absent. -/
def ofSetting? (s : Setting) : Option Entry := do
  let fields ← s.record? ["key", "model"]
  some {
    key := ⟨← fields.required "key" Setting.asText?⟩
    model := ← fields.optional "model" (Setting.asOption? Setting.asText?) none }

/-- An entry as it is written. -/
def toSetting (e : Entry) : Setting :=
  .table [("key", .text e.key.text), ("model", .ofOption .text e.model)]

end Entry

/-- A usable secret, its model if it has one, and the number of the entry it comes from. -/
structure Slot where
  secret : Secret
  model : Option String
  source : Source
  entry : Nat
  deriving DecidableEq, Repr

/-- What the names of the numbered variables begin with. -/
def numberedName : String := "FLEET_CREDENTIAL_"

/-- What the name of the variable with an entry's model ends with. -/
def modelEnding : String := "_MODEL"

/-- The legacy variables: secret and model. -/
def legacyNames : List (String × String) :=
  [("FLEET_API_KEY", "FLEET_MODEL"), ("FLEET_API_KEY_2", "FLEET_MODEL_2")]

/-- The variable that holds the secret of entry `n`. -/
def secretName (n : Nat) : String :=
  String.ofList (numberedName.toList ++ Decimal.digits n)

/-- The variable that holds the model of entry `n`. -/
def modelName (n : Nat) : String :=
  String.ofList (numberedName.toList ++ Decimal.digits n ++ modelEnding.toList)

/-- The entry number in the name of a variable: a number of at least one after the common
beginning.  Names of model variables have none. -/
def entryNumber? (name : String) : Option Nat :=
  if numberedName.toList.isPrefixOf name.toList then
    let rest := name.toList.drop numberedName.length
    if modelEnding.toList.isSuffixOf rest then none
    else match Decimal.parse? Json.maxNat64 rest with
      | some n => if 1 ≤ n then some n else none
      | none => none
  else none

/-- A slot with the trimmed secret and model, unless the secret is blank. -/
def trimmedSlot? (source : Source) (entry : Nat) (key : String) (model : Option String) :
    Option Slot :=
  if Blank.isBlankText key then none
  else some ⟨⟨Blank.trim key⟩, Blank.nonBlank? model, source, entry⟩

/-- The slots of the configuration's entries.  A secret is taken as it is, blanks around it
included. -/
def configuredSlots (entries : List Entry) : List Slot :=
  entries.zipIdx.filterMap fun (e, i) =>
    if Blank.isBlankText e.key.text then none
    else some ⟨e.key, Blank.nonBlank? e.model, .config, i + 1⟩

/-- Puts a numbered value at its place; of two values of one number the later one stays. -/
def insertNumbered (n : Nat) (value : String) : List (Nat × String) → List (Nat × String)
  | [] => [(n, value)]
  | (k, v) :: rest =>
    if n < k then (n, value) :: (k, v) :: rest
    else if n = k then (n, value) :: rest
    else (k, v) :: insertNumbered n value rest

/-- The numbered variables by ascending number, each number once. -/
def numberedValues (env : Environment) : List (Nat × String) :=
  env.foldl (fun acc (name, value) =>
    match entryNumber? name with
    | some n => insertNumbered n value acc
    | none => acc) []

/-- The least number from `k` on, among the next `fuel`, that is not in the list. -/
def missingFrom? (numbers : List Nat) : Nat → Nat → Option Nat
  | 0, _ => none
  | fuel + 1, k => if numbers.contains k then missingFrom? numbers fuel (k + 1) else some k

/-- The least number from one up to `last` that is not in the list. -/
def firstMissing? (numbers : List Nat) (last : Nat) : Option Nat :=
  match missingFrom? numbers (numbers.length + 1) 1 with
  | some k => if k ≤ last then some k else none
  | none => none

/-- The slots of the numbered variables. -/
def numberedSlots (env : Environment) : Except RoutingError (List Slot) :=
  let values := numberedValues env
  let numbers := values.map (·.1)
  match numbers.getLast? with
  | none => .ok []
  | some last =>
    match firstMissing? numbers last with
    | some missing => .error (.configuration
        s!"{secretName missing} is missing while {secretName last} is set")
    | none => .ok (values.filterMap fun (n, value) =>
        trimmedSlot? .numbered n value (env.value? (modelName n)))

/-- The slots of the legacy variables. -/
def legacySlots (env : Environment) : List Slot :=
  legacyNames.zipIdx.filterMap fun ((keyName, modelName), i) =>
    match env.value? keyName with
    | some key => trimmedSlot? .legacy (i + 1) key (env.value? modelName)
    | none => none

/-- The slots of the first source that has any. -/
def loadSlots (entries : List Entry) (env : Environment) : Except RoutingError (List Slot) :=
  if entries.isEmpty then
    match numberedSlots env with
    | .error e => .error e
    | .ok [] => .ok (legacySlots env)
    | .ok slots => .ok slots
  else .ok (configuredSlots entries)

end InferenceRouting.Credential
