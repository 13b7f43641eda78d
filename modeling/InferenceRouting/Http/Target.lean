import InferenceRouting.Text.Decimal

/-!
# Request targets

A target is an address of the web in normal form: the host in small letters, the port only when it
is not the scheme's own, the path without `.` and `..` segments and never empty, and every character
that may not stand in an address percent-encoded.  The part after `#` is not sent.

Which texts are addresses, and of which targets, is for a `TargetReader` to say.
-/

namespace InferenceRouting.Http

/-- Where a request goes; the path includes the query. -/
structure Target where
  scheme : String
  host : String
  port : Nat
  path : String
  deriving DecidableEq, Repr

/-- Reads addresses; `none` when no request can be sent to a text. -/
def TargetReader := String → Option Target

namespace Target

/-- The port of a scheme. -/
def schemePort (scheme : String) : Nat :=
  if scheme = "https" then 443 else 80

/-- Host and port. -/
def authority (t : Target) : String :=
  t.host ++ ":" ++ Decimal.text t.port

/-- Host and port, without a port that is the scheme's own. -/
def shownAuthority (t : Target) : String :=
  if t.port = schemePort t.scheme then t.host else t.authority

/-- The whole address. -/
def url (t : Target) : String :=
  t.scheme ++ "://" ++ t.shownAuthority ++ t.path

end Target

end InferenceRouting.Http
