import InferenceRouting.Error
import InferenceRouting.Setting.Basic

/-!
# Endpoints

An endpoint is an address with the paths that are used on it.  Slashes at the end of an address are
dropped, so a path can be put after it.
-/

namespace InferenceRouting.Http

/-- How endpoints are called; the time is in milliseconds. -/
structure HttpConfig where
  chatPath : String := "/v1/chat/completions"
  livenessPath : String := "/health"
  requestTimeout : Nat := 120000
  deriving DecidableEq, Repr

namespace HttpConfig

/-- Reads a configuration, in which every field may be missing. -/
def ofSetting? (s : Setting) : Option HttpConfig := do
  let fields ← s.record? ["chat_path", "liveness_path", "request_timeout"]
  let d : HttpConfig := {}
  some {
    chatPath := ← fields.optional "chat_path" Setting.asText? d.chatPath
    livenessPath := ← fields.optional "liveness_path" Setting.asText? d.livenessPath
    requestTimeout := ← fields.optional "request_timeout" Setting.asMillis? d.requestTimeout }

/-- A configuration as it is written: times in whole seconds. -/
def toSetting (c : HttpConfig) : Setting :=
  .table [
    ("chat_path", .text c.chatPath),
    ("liveness_path", .text c.livenessPath),
    ("request_timeout", .ofMillis c.requestTimeout)]

end HttpConfig

/-- Whether an address is one of the web. -/
def isHttpAddress (address : String) : Bool :=
  "http://".toList.isPrefixOf address.toList || "https://".toList.isPrefixOf address.toList

/-- An address that can be called, and the time a call may take. -/
structure Endpoint where
  baseUrl : String
  chatUrl : String
  livenessUrl : String
  requestTimeout : Nat
  deriving DecidableEq, Repr

/-- A text without slashes at its end. -/
def trimSlashes (s : String) : String :=
  String.ofList (s.toList.reverse.dropWhile (· = '/')).reverse

/-- The endpoint at an address. -/
def Endpoint.connect (config : HttpConfig) (address : String) : Except RoutingError Endpoint :=
  let base := trimSlashes address
  if isHttpAddress base then
    .ok ⟨base, base ++ config.chatPath, base ++ config.livenessPath, config.requestTimeout⟩
  else .error (.invalidInput ("upstream base URL must be http(s): " ++ address))

end InferenceRouting.Http
