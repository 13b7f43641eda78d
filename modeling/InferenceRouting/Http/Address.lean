import InferenceRouting.Http.Target

/-!
# Plain addresses

A plain address names its host by letters, digits, hyphens and dots, or by the four numbers or the
brackets of an internet address, with no user before it.  `Target.ofAddress?` reads these.  Of other
texts it knows too little: it takes any number and whatever stands in brackets for a host, and it
reads neither a host with letters beyond ASCII or encoded ones nor one with a user.  So it is one
reader among others, and nothing but runs on given addresses depends on it.
-/

namespace InferenceRouting.Http.Target

/-- A hexadecimal digit in capitals. -/
def hexDigit (d : Nat) : Char :=
  if d < 10 then Char.ofNat (48 + d) else Char.ofNat (55 + d)

/-- A character by its bytes. -/
def percentEncoded (c : Char) : List Char :=
  (String.utf8EncodeChar c).flatMap fun b =>
    ['%', hexDigit (b.toNat / 16), hexDigit (b.toNat % 16)]

/-- A text with some characters percent-encoded, and every one outside printable ASCII. -/
def encode (special : List Char) (cs : List Char) : List Char :=
  cs.flatMap fun c =>
    if c.toNat ≤ 32 || 127 ≤ c.toNat || special.contains c then percentEncoded c else [c]

/-- The characters that are encoded in a path. -/
def pathSpecial : List Char := ['"', '#', '<', '>', '?', '`', '\x7b', '\x7d']

/-- The characters that are encoded in a query. -/
def querySpecial : List Char := ['"', '#', '<', '>', '\'']

/-- A slash of either kind. -/
def isSlash (c : Char) : Bool :=
  c = '/' || c = '\\'

/-- The pieces between slashes. -/
def segments : List Char → List (List Char)
  | [] => [[]]
  | c :: rest =>
    if isSlash c then [] :: segments rest
    else match segments rest with
      | [] => [[c]]
      | s :: more => (c :: s) :: more

/-- A segment that stands for the directory it is in. -/
def isHere (segment : List Char) : Bool :=
  [".", "%2e"].contains (String.ofList (segment.map Char.toLower))

/-- A segment that stands for the directory above. -/
def isAbove (segment : List Char) : Bool :=
  ["..", ".%2e", "%2e.", "%2e%2e"].contains (String.ofList (segment.map Char.toLower))

/-- Resolves the segments that name directories.  `kept` holds those before, the last first. -/
def resolve (kept : List (List Char)) : List (List Char) → List (List Char)
  | [] => kept.reverse
  | s :: rest =>
    if isAbove s then
      if rest.isEmpty then ([] :: kept.tail).reverse else resolve kept.tail rest
    else if isHere s then
      if rest.isEmpty then ([] :: kept).reverse else resolve kept rest
    else resolve (s :: kept) rest

/-- The path in normal form. -/
def normalPath (path : List Char) : List Char :=
  let path := if path.head?.any isSlash then path.tail else path
  (resolve [] (segments path)).flatMap fun s => '/' :: encode pathSpecial s

/-- Whether a character may stand in the name of a host. -/
def isHostChar (c : Char) : Bool :=
  32 < c.toNat && c.toNat < 127 && !"#/<>?@[\\]^|%:".toList.contains c

/-- The host in normal form. -/
def host? (cs : List Char) : Option String :=
  match cs with
  | '[' :: rest =>
    if rest.getLast? = some ']' then some (String.ofList (cs.map Char.toLower)) else none
  | [] => none
  | _ => if cs.all isHostChar then some (String.ofList (cs.map Char.toLower)) else none

/-- Splits an authority before the colon of its port, which is the last one outside brackets. -/
def splitPort (cs : List Char) : List Char × Option (List Char) :=
  let tail := cs.reverse.takeWhile fun c => c ≠ ':' && c ≠ ']'
  match cs.reverse.drop tail.length with
  | ':' :: host => (host.reverse, some tail.reverse)
  | _ => (cs, none)

/-- The port, which may be left out. -/
def port? (scheme : String) : Option (List Char) → Option Nat
  | none | some [] => some (schemePort scheme)
  | some digits => if digits.all Char.isDigit then Decimal.parse? 65535 digits else none

/-- The scheme of an address and what follows it. -/
def splitScheme? (cs : List Char) : Option (String × List Char) :=
  if "http:".toList.isPrefixOf cs then some ("http", cs.drop 5)
  else if "https:".toList.isPrefixOf cs then some ("https", cs.drop 6)
  else none

/-- The characters of an address that count: none at the end that is blank or a control, and
neither tabs nor line breaks. -/
def significant (cs : List Char) : List Char :=
  ((cs.reverse.dropWhile fun c => c.toNat ≤ 32).reverse).filter
    fun c => c ≠ '\t' && c ≠ '\n' && c ≠ '\r'

/-- Reads plain addresses. -/
def ofAddress? : TargetReader := fun address => do
  let (scheme, rest) ← splitScheme? (significant address.toList)
  let rest := rest.dropWhile isSlash
  let authority := rest.takeWhile fun c => !isSlash c && c ≠ '?' && c ≠ '#'
  let rest := (rest.drop authority.length).takeWhile (· ≠ '#')
  let path := rest.takeWhile (· ≠ '?')
  let query := match rest.drop path.length with
    | '?' :: q => '?' :: encode querySpecial q
    | _ => []
  let (host, port) := splitPort authority
  some {
    scheme
    host := ← host? host
    port := ← port? scheme port
    path := String.ofList (normalPath path ++ query) }

end InferenceRouting.Http.Target
