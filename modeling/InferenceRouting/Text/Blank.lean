/-!
# White space

The characters with the Unicode property White_Space, and the removal of such characters at both
ends of a text.
-/

namespace InferenceRouting.Blank

/-- Whether a character has the property White_Space. -/
def isBlank (c : Char) : Bool :=
  let n := c.toNat
  (9 ≤ n && n ≤ 13) || n = 0x20 || n = 0x85 || n = 0xA0 || n = 0x1680
    || (0x2000 ≤ n && n ≤ 0x200A) || n = 0x2028 || n = 0x2029 || n = 0x202F || n = 0x205F
    || n = 0x3000

/-- The text without white space at its ends. -/
def trimChars (cs : List Char) : List Char :=
  ((cs.dropWhile isBlank).reverse.dropWhile isBlank).reverse

/-- The text without white space at its ends. -/
def trim (s : String) : String :=
  String.ofList (trimChars s.toList)

/-- Whether a text has nothing but white space. -/
def isBlankText (s : String) : Bool :=
  s.toList.all isBlank

/-- The trimmed text of a value that is present and not blank. -/
def nonBlank? (value : Option String) : Option String :=
  match value with
  | some v => if isBlankText v then none else some (trim v)
  | none => none

end InferenceRouting.Blank
