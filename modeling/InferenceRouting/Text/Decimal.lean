/-!
# Decimal numerals of natural numbers

`digits` writes a natural number in base ten and `value` reads a run of digits back.  `parse?` is
the reader used for ports and entry numbers: one optional plus sign, at least one digit, leading
zeros allowed, and a bound that the number must not exceed.

Main statements: `value_digits` (reading what was written), `parse?_digits` (the bounded reader
accepts every number up to its bound).
-/

namespace InferenceRouting.Decimal

/-- The character of a single digit. -/
def digitChar (d : Nat) : Char :=
  Char.ofNat (48 + d)

/-- The number a digit character stands for. -/
def digitValue (c : Char) : Nat :=
  c.toNat - 48

/-- The digits of `n`, most significant first; zero is one digit. -/
def digits (n : Nat) : List Char :=
  if n < 10 then [digitChar n] else digits (n / 10) ++ [digitChar (n % 10)]
termination_by n
decreasing_by omega

/-- The number spelled by a run of digits. -/
def value (cs : List Char) : Nat :=
  cs.foldl (fun acc c => acc * 10 + digitValue c) 0

/-- The numeral of `n` as text. -/
def text (n : Nat) : String :=
  String.ofList (digits n)

/-- `n` with zeros in front up to `width` digits. -/
def padded (width n : Nat) : String :=
  let ds := digits n
  String.ofList (List.replicate (width - ds.length) '0' ++ ds)

/-- A signed number, the minus sign in front. -/
def signed (n : Int) : String :=
  if n < 0 then "-" ++ text n.natAbs else text n.natAbs

/-- Reads an unsigned number not above `bound`: an optional plus sign, then digits only. -/
def parse? (bound : Nat) (cs : List Char) : Option Nat :=
  let body := match cs with
    | '+' :: r => r
    | _ => cs
  if body.isEmpty || !body.all Char.isDigit then none
  else if value body ≤ bound then some (value body) else none

theorem isDigit_digitChar {d : Nat} (h : d < 10) : (digitChar d).isDigit = true :=
  (by decide : ∀ d, d < 10 → (digitChar d).isDigit = true) d h

theorem digitValue_digitChar {d : Nat} (h : d < 10) : digitValue (digitChar d) = d :=
  (by decide : ∀ d, d < 10 → digitValue (digitChar d) = d) d h

/-- A numeral consists of digits only. -/
theorem all_isDigit_digits (n : Nat) : ∀ c ∈ digits n, c.isDigit = true := by
  rw [digits]
  split
  · intro c hc
    obtain rfl := List.mem_singleton.mp hc
    exact isDigit_digitChar (by assumption)
  · intro c hc
    rcases List.mem_append.mp hc with hc | hc
    · exact all_isDigit_digits (n / 10) c hc
    · obtain rfl := List.mem_singleton.mp hc
      exact isDigit_digitChar (by omega)
termination_by n
decreasing_by omega

theorem digits_ne_nil (n : Nat) : digits n ≠ [] := by
  rw [digits]; split <;> simp

/-- Reading a numeral gives the number back. -/
theorem value_digits (n : Nat) : value (digits n) = n := by
  rw [digits]
  split
  · simp [value, digitValue_digitChar (by assumption)]
  · have ih := value_digits (n / 10)
    simp only [value, List.foldl_append, List.foldl_cons, List.foldl_nil] at ih ⊢
    rw [ih, digitValue_digitChar (by omega)]
    omega
termination_by n
decreasing_by omega

/-- The bounded reader accepts the numeral of every number up to its bound. -/
theorem parse?_digits {bound n : Nat} (h : n ≤ bound) : parse? bound (digits n) = some n := by
  have hall : (digits n).all Char.isDigit = true := List.all_eq_true.mpr (all_isDigit_digits n)
  cases hd : digits n with
  | nil => exact absurd hd (digits_ne_nil n)
  | cons c r =>
    have hc : c.isDigit = true := all_isDigit_digits n c (by simp [hd])
    have hplus : c ≠ '+' := by rintro rfl; exact absurd hc (by decide)
    have hbody : (match c :: r with | '+' :: r => r | _ => c :: r) = c :: r := by
      split
      · next heq => exact absurd (List.cons.inj heq).1 hplus
      · rfl
    rw [hd] at hall
    have hv : value (c :: r) = n := by rw [← hd, value_digits]
    simp [parse?, hbody, hall, hv, h]

end InferenceRouting.Decimal
