import Mathlib.Data.List.Basic
import InferenceRouting.Json.Tree
import InferenceRouting.Json.Writer

/-!
# Integers in decimal

A written integer is a sign and the digits of its magnitude, without a leading zero, and the reader
takes all of them as long as none of what follows could go on with a number (`Stops`).  Every
integer of the signed or unsigned 64-bit range fits the 64-bit significand of the reader, so it is
read as an integer and not as a double (`Numeral.number?_written`).
-/

namespace InferenceRouting

namespace Decimal

/-- Only zero is written with a leading zero. -/
theorem head?_digits_ne_zero {n : Nat} (h : n ≠ 0) : (digits n).head? ≠ some '0' := by
  rw [digits]
  split
  · next hlt =>
    exact (by decide : ∀ d, d < 10 → d ≠ 0 → [digitChar d].head? ≠ some '0') n hlt h
  · next hge =>
    have ih := head?_digits_ne_zero (n := n / 10) (by omega)
    rwa [List.head?_append_of_ne_nil _ (digits_ne_nil _)]
termination_by n
decreasing_by omega

/-- A number has a leading zero only when it is zero, which is one digit. -/
theorem digits_ne_zero_cons (n : Nat) (c : Char) (cs : List Char) : digits n ≠ '0' :: c :: cs := by
  intro h
  by_cases hn : n = 0
  · subst hn
    simp [digits, digitChar] at h
  · exact head?_digits_ne_zero hn (by simp [h])

end Decimal

namespace Json

/-- What may follow a number: nothing that goes on with it. -/
def Stops (rest : List Char) : Prop :=
  ∀ c ∈ rest.head?, c.isDigit = false ∧ c ≠ '.' ∧ c ≠ 'e' ∧ c ≠ 'E'

theorem stops_nil : Stops [] := by
  simp [Stops]

theorem stops_cons {c : Char} {rest : List Char}
    (h : c.isDigit = false ∧ c ≠ '.' ∧ c ≠ 'e' ∧ c ≠ 'E') : Stops (c :: rest) := by
  simpa [Stops] using h

/-- A written integer as the reader finds it: its sign and its digits. -/
def numeral (n : Int) : Numeral where
  negative := decide (n < 0)
  whole := Decimal.digits n.natAbs
  fraction := none
  exponent := none

namespace Tree

variable {rest : List Char}

theorem scanFraction_stop (h : Stops rest) : scanFraction rest = some (none, rest) := by
  unfold scanFraction
  split
  · next r => exact absurd rfl (h '.' rfl).2.1
  · rfl

theorem scanExponent_stop (h : Stops rest) : scanExponent rest = some (none, rest) := by
  unfold scanExponent
  split
  · next c r =>
    obtain ⟨-, -, he, hE⟩ := h c rfl
    simp [he, hE]
  · rfl

/-- The digits of a number are all taken, and nothing behind them. -/
theorem scanNumber_digits (negative : Bool) (n : Nat) (h : Stops rest) :
    scanNumber negative (Decimal.digits n ++ rest)
      = some (⟨negative, Decimal.digits n, none, none⟩, rest) := by
  have hall : ∀ c ∈ Decimal.digits n, c.isDigit = true := Decimal.all_isDigit_digits n
  have hhead : rest.takeWhile Char.isDigit = [] ∧ rest.dropWhile Char.isDigit = rest := by
    cases rest with
    | nil => simp
    | cons c r => simp [(h c rfl).1]
  have htake : (Decimal.digits n ++ rest).takeWhile Char.isDigit = Decimal.digits n := by
    rw [List.takeWhile_append_of_pos hall, hhead.1, List.append_nil]
  have hdrop : (Decimal.digits n ++ rest).dropWhile Char.isDigit = rest := by
    rw [List.dropWhile_append_of_pos hall, hhead.2]
  simp only [scanNumber, htake, hdrop]
  split
  · next hnil => exact absurd hnil (Decimal.digits_ne_nil n)
  · next hzero => exact absurd hzero (Decimal.digits_ne_zero_cons n _ _)
  · simp [scanFraction_stop h, scanExponent_stop h]

end Tree

namespace Numeral

/-- The significand only grows. -/
theorem le_foldl_digits (acc : Nat) (cs : List Char) :
    acc ≤ cs.foldl (fun acc c => acc * 10 + Decimal.digitValue c) acc := by
  induction cs generalizing acc with
  | nil => exact Nat.le_refl _
  | cons c cs ih =>
    have hstep : acc ≤ acc * 10 + Decimal.digitValue c := by omega
    exact Nat.le_trans hstep (ih _)

/-- Digits that fit the significand are all taken into it. -/
theorem fill_eq {acc : Nat} {cs : List Char}
    (h : cs.foldl (fun acc c => acc * 10 + Decimal.digitValue c) acc ≤ maxNat64) :
    fill acc cs = (cs.foldl (fun acc c => acc * 10 + Decimal.digitValue c) acc, []) := by
  induction cs generalizing acc with
  | nil => rfl
  | cons c cs ih =>
    have hnext : acc * 10 + Decimal.digitValue c ≤ maxNat64 := Nat.le_trans (le_foldl_digits _ cs) h
    rw [fill, if_pos hnext]
    exact ih h

/-- The digits of a number of the unsigned 64-bit range fill the significand with it. -/
theorem fill_digits {n : Nat} (h : n ≤ maxNat64) : fill 0 (Decimal.digits n) = (n, []) := by
  have hvalue : (Decimal.digits n).foldl (fun acc c => acc * 10 + Decimal.digitValue c) 0 = n :=
    Decimal.value_digits n
  rw [fill_eq (by rwa [hvalue]), hvalue]

/-- A written integer of the signed or unsigned 64-bit range denotes itself. -/
theorem number?_written {n : Int} (low : minInt64 ≤ n) (high : n ≤ maxNat64) :
    (numeral n).number? = some (.int n) := by
  have hfit : n.natAbs ≤ maxNat64 := by
    simp only [minInt64, maxNat64] at *
    omega
  simp only [number?, numeral, fill_digits hfit]
  by_cases hneg : n < 0
  · have habs : -(n.natAbs : Int) = n := by omega
    have hpos : 0 < n.natAbs := by omega
    simp only [hneg, habs, hpos, low, decide_true, if_true]
    rfl
  · have habs : (n.natAbs : Int) = n := by omega
    simp only [hneg, habs, decide_false]
    rfl

end Numeral

end Json

end InferenceRouting
