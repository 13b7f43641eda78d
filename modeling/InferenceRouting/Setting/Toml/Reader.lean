import InferenceRouting.Setting.Toml.Scalar
import InferenceRouting.Setting.Toml.Document

/-!
# Reading TOML

A document is a sequence of lines: headers, definitions, comments.  `Toml.read?` gives the tree that
a document denotes, and `none` for a text that is no document.
-/

namespace InferenceRouting.Toml

mutual

/-- A value. -/
def value? : Nat → List Char → Option (Setting × List Char)
  | 0, _ => none
  | fuel + 1, cs =>
    match cs with
    | '"' :: _ => (string? cs).map fun (s, rest) => (.text s, rest)
    | '\'' :: _ => (string? cs).map fun (s, rest) => (.text s, rest)
    | '[' :: rest => (items? fuel rest).map fun (items, rest) => (.list items, rest)
    | '{' :: rest =>
      match skipBlank rest with
      | '}' :: rest => some (.table [], rest)
      | rest => (pairs? fuel [] rest).map fun (ms, rest) => (.table (membersToSettings ms), rest)
    | _ => scalar? cs

/-- The items of a list up to its end; lines may end anywhere between them. -/
def items? : Nat → List Char → Option (List Setting × List Char)
  | 0, _ => none
  | fuel + 1, cs =>
    match skipLines fuel cs with
    | ']' :: rest => some ([], rest)
    | rest => do
      let (item, rest) ← value? fuel rest
      match skipLines fuel rest with
      | ',' :: rest =>
        let (items, rest) ← items? fuel rest
        some (item :: items, rest)
      | ']' :: rest => some ([item], rest)
      | _ => none

/-- The definitions of a table on one line, added to those before them. -/
def pairs? : Nat → Members → List Char → Option (Members × List Char)
  | 0, _, _ => none
  | fuel + 1, members, cs => do
    let (key, rest) ← key? fuel cs
    let '=' :: rest := rest | none
    let (value, rest) ← value? fuel (skipBlank rest)
    let members ← members.defineAt key value
    match skipBlank rest with
    | ',' :: rest => pairs? fuel members rest
    | '}' :: rest => some (members, rest)
    | _ => none

end

/-- A document read so far: its tables and the path of the section that is open. -/
structure Document where
  members : Members := []
  current : List String := []

/-- Reads one line that is neither blank nor a comment.  Gives the rest after what it says. -/
def line? (fuel : Nat) (doc : Document) (cs : List Char) : Option (Document × List Char) :=
  match cs with
  | '[' :: '[' :: rest => do
    let (key, rest) ← key? fuel rest
    let ']' :: ']' :: rest := rest | none
    let (path, name) ← Members.splitLast? key
    let members ← doc.members.change false (Members.extendTables name) path
    some (⟨members, key⟩, rest)
  | '[' :: rest => do
    let (key, rest) ← key? fuel rest
    let ']' :: rest := rest | none
    let (path, name) ← Members.splitLast? key
    let members ← doc.members.change false (Members.openTable name) path
    some (⟨members, key⟩, rest)
  | _ => do
    let (key, rest) ← key? fuel cs
    let '=' :: rest := rest | none
    let (value, rest) ← value? fuel (skipBlank rest)
    let members ← doc.members.change false (Members.defineAt key value) doc.current
    some (⟨members, doc.current⟩, rest)

/-- Reads lines up to the end of the text. -/
def lines? : Nat → Document → List Char → Option Document
  | 0, _, _ => none
  | fuel + 1, doc, cs =>
    match skipLines fuel cs with
    | [] => some doc
    | rest => do
      let (doc, rest) ← line? fuel doc rest
      let rest ← lineEnd? rest
      lines? fuel doc rest

/-- The tree of a document. -/
def read? (text : String) : Option Setting := do
  let cs := match text.toList with
    | '\uFEFF' :: rest => rest
    | cs => cs
  let doc ← lines? (cs.length + 2) {} cs
  some (.table (membersToSettings doc.members))

end InferenceRouting.Toml
