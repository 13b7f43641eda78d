import InferenceRouting.Setting.Yaml.Scalar

/-!
# Reading YAML

A document is read line by line.  The indentation of a line says which collection it belongs to; a
collection on one line in brackets may run over several, whatever their indentation.  When only the
first part of a line has been read, the rest is put back with blanks in its place, so what follows a
dash or a key stands at its own column.

`Yaml.read?` gives the tree of a text with at most one document, and `none` for any other text.
-/

namespace InferenceRouting.Yaml

/-- The lines that have not been read, and what the anchors stand for. -/
structure State where
  lines : List (List Char)
  anchors : List (String × Setting) := []

/-- A reader of a part of a document. -/
abbrev Reader := StateT State Option

/-- The indentation of a line. -/
def indentation (line : List Char) : Nat :=
  (line.takeWhile (· = ' ')).length

/-- Whether nothing but a comment is left on a line. -/
def isVoid (cs : List Char) : Bool :=
  match cs.dropWhile isBlank with
  | [] => true
  | c :: _ => c = '#'

/-- Whether nothing but a comment is left on a line after something: a comment needs a blank before
it. -/
def isVoidAfter (cs : List Char) : Bool :=
  match cs with
  | [] => true
  | c :: rest => isBlank c && isVoid rest

/-- A text split at its line breaks. -/
def splitLines (cs : List Char) : List (List Char) :=
  (cs.splitOn '\n').map fun line => if line.getLast? = some '\r' then line.dropLast else line

/-- The first line that is not void, without reading it. -/
def peek : Reader (Option (List Char)) := do
  let s ← get
  let lines := s.lines.dropWhile isVoid
  set { s with lines }
  pure lines.head?

/-- Replaces the first line. -/
def putBack (line : List Char) : Reader Unit :=
  modify fun s => { s with lines := line :: s.lines.drop 1 }

/-- Leaves the first line. -/
def dropLine : Reader Unit :=
  modify fun s => { s with lines := s.lines.drop 1 }

/-- Requires that nothing but a comment is left on the first line, and leaves it. -/
def endLine (rest : List Char) : Reader Unit :=
  if isVoidAfter rest then dropLine else failure

/-- Whether a text begins with a dash that marks an item. -/
def isItem : List Char → Bool
  | '-' :: rest => beginsBlank rest
  | _ => false

/-- A key at the beginning of a line, and what follows its colon. -/
def key? (cs : List Char) : Option (String × List Char) :=
  let (name?, rest) : Option String × List Char := match quoted? cs with
    | some (k, rest) => (some k, rest)
    | none =>
      if canBeginPlain false cs then
        let (k, rest) := plain false (cs.length + 1) false cs
        (some (String.ofList k), rest)
      else (none, cs)
  match name?, rest.dropWhile isBlank with
  | some k, ':' :: rest => if beginsBlank rest then some (k, rest) else none
  | _, _ => none

/-- The name of an anchor or an alias, or a tag. -/
def word (cs : List Char) : String × List Char :=
  let stop (c : Char) : Bool := isSpace c || flowMarks.contains c
  (String.ofList (cs.takeWhile (!stop ·)), cs.dropWhile (!stop ·))

/-- A scalar with a tag: the usual tags say how it is to be read, others are not known. -/
def tagged (tag text : String) (isPlain : Bool) (value : Setting) : Option Setting :=
  if tag = "!" || tag = "!!str" then some (.text text)
  else if tag = "!!map" || tag = "!!seq" then if isPlain then none else some value
  else if ["!!null", "!!bool", "!!int", "!!float"].contains tag then
    match resolve text with
    | .text _ => none
    | s => some s
  else none

/-! Collections on one line. -/

/-- The rest after blanks, line breaks and comments.  `fuel` bounds the comments. -/
def skipFlow : Nat → List Char → List Char
  | 0, cs => cs
  | fuel + 1, cs =>
    match cs.dropWhile isSpace with
    | '#' :: rest => skipFlow fuel (rest.dropWhile (· ≠ '\n'))
    | rest => rest

/-- A value with its text, if it is a scalar. -/
abbrev Node := Setting × Option String

mutual

/-- A value inside a collection on one line. -/
def flowNode (anchors : List (String × Setting)) : Nat → List Char → Option (Node × List Char)
  | 0, _ => none
  | fuel + 1, cs =>
    match skipFlow fuel cs with
    | '[' :: rest => (flowItems anchors fuel rest).map fun (xs, rest) => ((.list xs, none), rest)
    | '{' :: rest =>
      (flowMembers anchors fuel rest).map fun (ms, rest) => ((.ofMembers ms, none), rest)
    | '*' :: rest => do
      let (name, rest) := word rest
      some ((← anchors.lookup name, none), rest)
    | '!' :: rest => do
      let (tag, rest) := word ('!' :: rest)
      let ((value, text), next) ← flowNode anchors fuel rest
      some ((← tagged tag (text.getD "") false value, text), next)
    | '&' :: rest => flowNode anchors fuel (word rest).2
    | rest =>
      match quoted? rest with
      | some (s, rest) => some ((.text s, some s), rest)
      | none =>
        if canBeginPlain true rest then
          let (text, next) := plain true (rest.length + 1) false rest
          let s := String.ofList text
          some ((resolve s, some s), next)
        else none

/-- The items of a list up to its end. -/
def flowItems (anchors : List (String × Setting)) : Nat → List Char →
    Option (List Setting × List Char)
  | 0, _ => none
  | fuel + 1, cs =>
    match skipFlow fuel cs with
    | ']' :: rest => some ([], rest)
    | rest => do
      let ((item, text), rest) ← flowNode anchors fuel rest
      let (item, rest) ← match skipFlow fuel rest with
        | ':' :: rest => do
          let key ← text
          let (value, rest) ← flowValue anchors fuel rest
          some (Setting.table [(key, value)], rest)
        | rest => some (item, rest)
      match skipFlow fuel rest with
      | ',' :: rest =>
        let (items, rest) ← flowItems anchors fuel rest
        some (item :: items, rest)
      | ']' :: rest => some ([item], rest)
      | _ => none

/-- The members of a table up to its end. -/
def flowMembers (anchors : List (String × Setting)) : Nat → List Char →
    Option (List (String × Setting) × List Char)
  | 0, _ => none
  | fuel + 1, cs =>
    match skipFlow fuel cs with
    | '}' :: rest => some ([], rest)
    | rest => do
      let ((_, text), rest) ← flowNode anchors fuel rest
      let key ← text
      let (value, rest) ← match skipFlow fuel rest with
        | ':' :: rest => flowValue anchors fuel rest
        | rest => some (.null, rest)
      match skipFlow fuel rest with
      | ',' :: rest =>
        let (members, rest) ← flowMembers anchors fuel rest
        some ((key, value) :: members, rest)
      | '}' :: rest => some ([(key, value)], rest)
      | _ => none

/-- The value after a colon, which may be missing. -/
def flowValue (anchors : List (String × Setting)) : Nat → List Char →
    Option (Setting × List Char)
  | 0, _ => none
  | fuel + 1, cs =>
    match skipFlow fuel cs with
    | ',' :: rest => some (.null, ',' :: rest)
    | ']' :: rest => some (.null, ']' :: rest)
    | '}' :: rest => some (.null, '}' :: rest)
    | rest => (flowNode anchors fuel rest).map fun ((value, _), rest) => (value, rest)

end

/-! Scalars in block collections. -/

/-- How the end of a block scalar is kept. -/
inductive Chomping where
  | clip
  | strip
  | keep
  deriving DecidableEq

/-- What follows the mark of a block scalar: an indentation, how the end is kept, and the rest. -/
def blockHeader : List Char → Option Nat × Chomping × List Char
  | '+' :: d :: r => if d.isDigit && d ≠ '0' then (some (d.toNat - 48), .keep, r)
      else (none, .keep, d :: r)
  | '-' :: d :: r => if d.isDigit && d ≠ '0' then (some (d.toNat - 48), .strip, r)
      else (none, .strip, d :: r)
  | ['+'] => (none, .keep, [])
  | ['-'] => (none, .strip, [])
  | d :: r =>
    if d.isDigit && d ≠ '0' then
      match r with
      | '+' :: r => (some (d.toNat - 48), .keep, r)
      | '-' :: r => (some (d.toNat - 48), .strip, r)
      | r => (some (d.toNat - 48), .clip, r)
    else (none, .clip, d :: r)
  | [] => (none, .clip, [])

/-- Whether a line has nothing but spaces. -/
def isSpaces (line : List Char) : Bool :=
  line.all (· = ' ')

/-- Joins the lines of a folded block scalar: a break between two lines of text counts as a blank,
breaks around lines that are indented further are kept. -/
def foldLines : List (List Char) → List Char
  | [] => []
  | [line] => line
  | line :: next :: rest =>
    let tail := foldLines (next :: rest)
    let isText (l : List Char) : Bool := !beginsBlank l
    if isText line && isText next then line ++ ' ' :: tail
    else if isText line && next.isEmpty then
      -- The break that ends a line of text is dropped when empty lines and another such line follow.
      match (next :: rest).dropWhile List.isEmpty with
      | l :: _ => if isText l then line ++ tail else line ++ '\n' :: tail
      | [] => line ++ '\n' :: tail
    else line ++ '\n' :: tail

/-- The text of a block scalar whose lines need an indentation of at least `min`.  The first line is
the one with its mark. -/
def blockScalar (folded : Bool) (min : Nat) (header : List Char) : Reader Setting := do
  let (explicit, chomping, rest) := blockHeader header
  endLine rest
  let s ← get
  let first := (s.lines.dropWhile isSpaces).head?
  let indent := match explicit with
    | some d => min - 1 + d
    | none => max (max min 1) ((first.map indentation).getD 0)
  let body := s.lines.takeWhile fun l => isSpaces l || indent ≤ indentation l
  set { s with lines := s.lines.drop body.length }
  let lines := body.map (·.drop indent)
  let ending := (lines.reverse.takeWhile List.isEmpty).length
  let content := lines.take (lines.length - ending)
  let text := if folded then foldLines content else ['\n'].intercalate content
  let close : List Char := match chomping with
    | .strip => []
    | .clip => if content.isEmpty then [] else ['\n']
    | .keep => List.replicate (ending + if content.isEmpty then 0 else 1) '\n'
  pure (.text (String.ofList (text ++ close)))

/-- The lines that continue a plain scalar, each of which needs an indentation of at least `min`.
`none` when one of them has a key. -/
def continuation (min : Nat) : Nat → List (List Char) → Option (List Char × List (List Char))
  | 0, lines => some ([], lines)
  | fuel + 1, lines =>
    let empty := lines.takeWhile fun l => (l.dropWhile isBlank).isEmpty
    match lines.drop empty.length with
    | [] => some ([], lines)
    | line :: rest =>
      if isVoid line || indentation line < min then some ([], lines)
      else
        let (text, after) := plain false (line.length + 1) true (line.dropWhile isBlank)
        let joint := fold (List.replicate (empty.length + 1) '\n')
        if !isVoidAfter after then none
        else if (after.dropWhile isBlank).isEmpty then do
          let (more, rest) ← continuation min fuel rest
          some (joint ++ text ++ more, rest)
        else some (joint ++ text, rest)

/-- A plain scalar that begins on the first line. -/
def plainScalar (min : Nat) (cs : List Char) : Reader Setting := do
  if !canBeginPlain false cs then failure
  let (text, after) := plain false (cs.length + 1) false cs
  if !isVoidAfter after then failure
  dropLine
  if (after.dropWhile isBlank).isEmpty then
    let s ← get
    match continuation min (s.lines.length + 1) s.lines with
    | some (more, lines) =>
      set { s with lines }
      pure (resolve (String.ofList (text ++ more)))
    | none => failure
  else pure (resolve (String.ofList text))

/-- Reads something that may run over several lines, from the first line on. -/
def acrossLines {α : Type} (cs : List Char) (read : List Char → Option (α × List Char)) :
    Reader α := do
  let s ← get
  match read (['\n'].intercalate (cs :: s.lines.drop 1)) with
  | none => failure
  | some (a, rest) =>
    set { s with lines := splitLines rest }
    endLine ((splitLines rest).headD [])
    pure a

/-! Block collections. -/

/-- The blanks in place of what was read of a line. -/
def blanks (line rest : List Char) : List Char :=
  List.replicate (line.length - rest.length) ' '

mutual

/-- A value of which every line has an indentation of at least `min`; null if there is none. -/
def blockNode : Nat → Nat → Reader Setting
  | 0, _ => failure
  | fuel + 1, min => do
    match ← peek with
    | none => pure .null
    | some line =>
      let n := indentation line
      let cs := line.drop n
      if n < min then pure .null
      else if isItem cs then do
        let items ← blockItems fuel n
        pure (.list items)
      else if (key? cs).isSome then do
        let members ← blockMembers fuel n
        pure (.ofMembers members)
      else lineNode fuel min line cs true

/-- The value that begins with the text `cs` of the first line and is no collection of lines, unless
properties come before it.  The flag says whether such a collection may follow them on this line. -/
def lineNode : Nat → Nat → List Char → List Char → Bool → Reader Setting
  | 0, _, _, _, _ => failure
  | fuel + 1, min, line, cs, mayOpen =>
    match cs with
    | '&' :: rest => do
      let (name, rest) := word rest
      let value ← propertyNode fuel min line rest mayOpen
      modify fun s => { s with anchors := (name, value) :: s.anchors }
      pure value
    | '!' :: rest => do
      let (tag, rest) := word ('!' :: rest)
      let text := match quoted? (rest.dropWhile isBlank) with
        | some (s, _) => s
        | none => String.ofList (plain false (rest.length + 1) true (rest.dropWhile isBlank)).1
      let value ← propertyNode fuel min line rest mayOpen
      match tagged tag text false value with
      | some value => pure value
      | none => failure
    | '*' :: rest => do
      let (name, rest) := word rest
      endLine rest
      match (← get).anchors.lookup name with
      | some value => pure value
      | none => failure
    | '|' :: rest => blockScalar false min rest
    | '>' :: rest => blockScalar true min rest
    | '[' :: _ => flowCollection cs
    | '{' :: _ => flowCollection cs
    | '"' :: _ => quotedScalar cs
    | '\'' :: _ => quotedScalar cs
    | _ => plainScalar min cs
where
  /-- A collection on one line. -/
  flowCollection (cs : List Char) : Reader Setting := do
    let anchors := (← get).anchors
    let (value, _) ← acrossLines cs fun text => flowNode anchors (2 * text.length + 2) text
    pure value
  /-- A quoted scalar. -/
  quotedScalar (cs : List Char) : Reader Setting := do
    let s ← acrossLines cs quoted?
    pure (.text s)

/-- The value after an anchor or a tag. -/
def propertyNode : Nat → Nat → List Char → List Char → Bool → Reader Setting
  | 0, _, _, _, _ => failure
  | fuel + 1, min, line, rest, mayOpen => do
    if !beginsBlank rest then failure
    if isVoidAfter rest then
      dropLine
      blockNode fuel min
    else if mayOpen then
      putBack (blanks line (rest.dropWhile isBlank) ++ rest.dropWhile isBlank)
      blockNode fuel min
    else lineNode fuel min line (rest.dropWhile isBlank) false

/-- The items of a list whose dashes stand at column `n`. -/
def blockItems : Nat → Nat → Reader (List Setting)
  | 0, _ => failure
  | fuel + 1, n => do
    match ← peek with
    | none => pure []
    | some line =>
      let cs := line.drop n
      if indentation line ≠ n || !isItem cs then pure []
      else
        putBack (List.replicate (n + 1) ' ' ++ cs.drop 1)
        let item ← blockNode fuel (n + 1)
        let items ← blockItems fuel n
        pure (item :: items)

/-- The members of a table whose keys stand at column `n`. -/
def blockMembers : Nat → Nat → Reader (List (String × Setting))
  | 0, _ => failure
  | fuel + 1, n => do
    match ← peek with
    | none => pure []
    | some line =>
      let cs := line.drop n
      if indentation line ≠ n then pure []
      else match key? cs with
        | none => failure
        | some (name, rest) =>
          let value ← memberValue fuel n line rest
          let members ← blockMembers fuel n
          pure ((name, value) :: members)

/-- The value of a member whose key stands at column `n`: on the same line, or on the next ones.
The items of a list may stand at the column of the key. -/
def memberValue : Nat → Nat → List Char → List Char → Reader Setting
  | 0, _, _, _ => failure
  | fuel + 1, n, line, rest => do
    if isVoidAfter rest then
      dropLine
      match ← peek with
      | none => pure .null
      | some next =>
        if indentation next = n && isItem (next.drop n) then do
          let items ← blockItems fuel n
          pure (.list items)
        else blockNode fuel (n + 1)
    else lineNode fuel (n + 1) line (rest.dropWhile isBlank) false

end

/-- Whether a line is a marker of three equal characters. -/
def isMarker (c : Char) (line : List Char) : Bool :=
  line.take 3 = [c, c, c] && beginsBlank (line.drop 3)

/-- The lines of the only document: directives and the marker at its beginning are left out.
`none` when there is more than one document. -/
def documentLines? (lines : List (List Char)) : Option (List (List Char)) :=
  let start := lines.dropWhile fun l => isVoid l || l.head? = some '%'
  let lines := match start with
    | l :: rest => if isMarker '-' l then ([' ', ' ', ' '] ++ l.drop 3) :: rest else lines
    | [] => lines
  let body := lines.takeWhile fun l => !isMarker '-' l && !isMarker '.' l
  match lines.drop body.length with
  | [] => some body
  | l :: rest =>
    if isMarker '.' l && rest.all fun l => isVoid l || isMarker '.' l then some body else none

/-- The tree of a text; a text without a document is an empty table. -/
def read? (text : String) : Option Setting := do
  let cs := match text.toList with
    | '\uFEFF' :: rest => rest
    | cs => cs
  let lines ← documentLines? (splitLines cs)
  if lines.all isVoid then some (.table [])
  else
    let (value, s) ← (blockNode (3 * cs.length + 8) 0).run { lines }
    if s.lines.all isVoid then some value else none

end InferenceRouting.Yaml
