import InferenceRouting.Text.Quoted

/-!
# Secrets

A secret is shown in full only where it is sent.  Everywhere else its masked form stands for it:
the first three and the last four characters of a secret of more than eight characters, and nothing
of a shorter one.
-/

namespace InferenceRouting

/-- The text of a credential. -/
structure Secret where
  text : String
  deriving DecidableEq, Repr

namespace Secret

/-- The form of a secret that may be shown. -/
def masked (s : Secret) : String :=
  let cs := s.text.toList
  if cs.length ≤ 8 then "****"
  else String.ofList (cs.take 3) ++ "..." ++ String.ofList (cs.drop (cs.length - 4))

/-- The form of a secret in a diagnostic text. -/
def diagnostic (s : Secret) : String :=
  "Credential(" ++ Quoted.text s.masked ++ ")"

/-- The value of an authorization header that carries the secret. -/
def bearer (s : Secret) : String :=
  "Bearer " ++ s.text

/-- Whether a text may stand in a header: no control character other than the tab. -/
def isHeaderText (value : String) : Bool :=
  value.toList.all fun c => c = '\t' || (32 ≤ c.toNat && c.toNat ≠ 127)

end Secret

end InferenceRouting
