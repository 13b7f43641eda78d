import Mathlib.Data.List.Basic
import InferenceRouting.Json.Tree
import InferenceRouting.Json.Writer

/-!
# Strings in quotes

Each character of a string is written so that the reader takes it back as one unit: as itself, as
one of the seven short escapes, or as `\u00xx` (`scanUnits_escapeChar`).  The closing quote is the
first one not behind a backslash, so the reader stops exactly there (`scanString_escaped`).
-/

namespace InferenceRouting.Json

/-- A hexadecimal digit stands for its value. -/
theorem hexValue_hexDigit {d : Nat} (h : d < 16) : Tree.hexValue (hexDigit d) = some d :=
  (by decide : ∀ d, d < 16 → Tree.hexValue (hexDigit d) = some d) d h

/-- Every character is written with at least one. -/
theorem escapeChar_ne_nil (c : Char) : escapeChar c ≠ [] := by
  unfold escapeChar
  split_ifs <;> simp

/-- A string is written with no fewer characters than it has. -/
theorem length_le_escaped (cs : List Char) : cs.length ≤ (cs.flatMap escapeChar).length := by
  induction cs with
  | nil => simp
  | cons c cs ih =>
    have hc : 0 < (escapeChar c).length := List.length_pos_of_ne_nil (escapeChar_ne_nil c)
    simp only [List.length_cons, List.flatMap_cons, List.length_append]
    omega

namespace Tree

/-- The four digits after `\u` of a control character give its code. -/
theorem hex4_hexDigit {n : Nat} (h : n < 32) (rest : List Char) :
    hex4 ('0' :: '0' :: hexDigit (n / 16) :: hexDigit (n % 16) :: rest) = some (n, rest) := by
  have hzero : hexValue '0' = some 0 := by decide
  have hhigh := hexValue_hexDigit (d := n / 16) (by omega)
  have hlow := hexValue_hexDigit (d := n % 16) (by omega)
  have hsum : n / 16 * 16 + n % 16 = n := by omega
  simp [hex4, hzero, hhigh, hlow, hsum]

/-- A short escape is read as the character it stands for. -/
theorem scanUnits_short {e c : Char} (h : simpleEscape e = some c) (hu : e ≠ 'u') (fuel : Nat)
    (rest : List Char) :
    scanUnits (fuel + 1) ('\\' :: e :: rest)
      = (scanUnits fuel rest).map fun p => (.char c :: p.1, p.2) := by
  cases hrest : scanUnits fuel rest <;> simp [scanUnits, h, hu, hrest]

/-- **One character.**  What is written for a character is read as that character, and the reader
goes on behind it. -/
theorem scanUnits_escapeChar (fuel : Nat) (c : Char) (rest : List Char) :
    scanUnits (fuel + 1) (escapeChar c ++ rest)
      = (scanUnits fuel rest).map fun p => (.char c :: p.1, p.2) := by
  unfold escapeChar
  split_ifs with hquote hback hb hf hn hr ht hcontrol
  iterate 7 (subst c; exact scanUnits_short (by decide) (by decide) fuel rest)
  · -- the code of a control character is below the surrogates
    have hcode : ¬(0xD800 ≤ c.toNat ∧ c.toNat < 0xE000) := by omega
    have hchar : Char.ofNat c.toNat = c := Char.ofNat_toNat c
    cases h : scanUnits fuel rest <;>
      simp [scanUnits, hex4_hexDigit hcontrol, hcode, hchar, h]
  · cases h : scanUnits fuel rest <;> simp [scanUnits, hquote, hback, hcontrol, h]

/-- The content of a written string is read unit by unit, up to the closing quote. -/
theorem scanUnits_escaped {fuel : Nat} {cs : List Char} (h : cs.length < fuel)
    (rest : List Char) :
    scanUnits fuel (cs.flatMap escapeChar ++ '"' :: rest) = some (cs.map .char, rest) := by
  induction cs generalizing fuel with
  | nil =>
    obtain ⟨fuel, rfl⟩ : ∃ k, fuel = k + 1 := ⟨fuel - 1, by simp at h; omega⟩
    simp [scanUnits]
  | cons c cs ih =>
    obtain ⟨fuel, rfl⟩ : ∃ k, fuel = k + 1 := ⟨fuel - 1, by simp at h; omega⟩
    have hcs : scanUnits fuel (cs.flatMap escapeChar ++ '"' :: rest) = some (cs.map .char, rest) :=
      ih (by simpa using h)
    rw [List.flatMap_cons, List.append_assoc, scanUnits_escapeChar, hcs]
    rfl

/-- Characters alone always make a text. -/
theorem joinUnits_chars (cs : List Char) : joinUnits (cs.map .char) = some cs := by
  induction cs with
  | nil => rfl
  | cons c cs ih => simp [joinUnits, ih]

/-- A written string is read back. -/
theorem scanString_escaped (s : String) (rest : List Char) :
    scanString (s.toList.flatMap escapeChar ++ '"' :: rest) = some (some s, rest) := by
  have hfuel : s.toList.length
      < (s.toList.flatMap escapeChar ++ '"' :: rest).length + 1 := by
    have := length_le_escaped s.toList
    simp only [List.length_append]
    omega
  rw [scanString, scanUnits_escaped hfuel]
  simp only [Option.bind_eq_bind, Option.bind_some, joinUnits_chars, Option.map_some,
    String.ofList_toList]

end Tree

end InferenceRouting.Json
