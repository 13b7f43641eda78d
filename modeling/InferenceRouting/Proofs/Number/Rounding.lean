import InferenceRouting.Number.Binary64
import Mathlib.Algebra.Order.Field.Power
import Mathlib.Algebra.Order.Field.Rat
import Mathlib.Data.Rat.Cast.Order
import Mathlib.Tactic.FieldSimp
import Mathlib.Tactic.Linarith
import Mathlib.Tactic.NormNum
import Mathlib.Tactic.Positivity
import Mathlib.Tactic.Ring

/-!
# Rounding keeps the order

A double stands for the rational number `value`.  `pickExponent` finds the least exponent, not below
`minExponent`, with which a fraction needs no more than 53 bits (`pickExponent_spec`); on the grid of
one exponent rounding keeps the order (`roundHalfEven_mono`), and on a coarser grid lie larger
numbers only.  So of two fractions the larger is rounded to the larger double (`ofRatio_mono`), and
whatever is at most one, or at most a hundred, is so after rounding.
-/

namespace InferenceRouting

/-- On one grid rounding keeps the order. -/
theorem roundHalfEven_mono {n d n' d' : Nat} (hd : 0 < d) (hd' : 0 < d') (h : n * d' ≤ n' * d) :
    roundHalfEven n d ≤ roundHalfEven n' d' := by
  have hn : d * (n / d) + n % d = n := Nat.div_add_mod n d
  have hn' : d' * (n' / d') + n' % d' = n' := Nat.div_add_mod n' d'
  have hfloor : n / d ≤ n' / d' := by
    refine (Nat.le_div_iff_mul_le hd').mpr (Nat.le_of_mul_le_mul_right ?_ hd)
    calc n / d * d' * d = d * (n / d) * d' := by ring
      _ ≤ n * d' := Nat.mul_le_mul_right _ (Nat.mul_div_le n d)
      _ ≤ n' * d := h
  unfold roundHalfEven
  dsimp only
  rcases Nat.lt_or_eq_of_le hfloor with hlt | heq
  · split <;> split <;> (try split) <;> (try split) <;> omega
  · -- both lie between the same two integers, and the remainders are in the same order
    rw [← heq] at hn'
    have hrest : n % d * d' ≤ n' % d' * d := by nlinarith
    have habove : d ≤ 2 * (n % d) → d' ≤ 2 * (n' % d') := by
      intro hhalf
      refine Nat.le_of_mul_le_mul_right ?_ hd
      nlinarith
    have hstrict : d < 2 * (n % d) → d' < 2 * (n' % d') := by
      intro hhalf
      refine Nat.lt_of_mul_lt_mul_right (a := d) ?_
      nlinarith
    rw [← heq]
    split <;> split <;> (try split) <;> (try split) <;> omega

/-- An integer is not rounded. -/
theorem roundHalfEven_one (k : Nat) : roundHalfEven k 1 = k := by
  unfold roundHalfEven
  dsimp only
  rw [Nat.mod_one, Nat.div_one, if_pos (by decide)]

/-- What is at most an integer is so after rounding. -/
theorem roundHalfEven_le {n d k : Nat} (hd : 0 < d) (h : n ≤ k * d) : roundHalfEven n d ≤ k := by
  calc roundHalfEven n d ≤ roundHalfEven k 1 := roundHalfEven_mono hd Nat.one_pos (by simpa using h)
    _ = k := roundHalfEven_one k

/-- What is at least an integer is so after rounding. -/
theorem le_roundHalfEven {n d k : Nat} (hd : 0 < d) (h : k * d ≤ n) : k ≤ roundHalfEven n d := by
  calc k = roundHalfEven k 1 := (roundHalfEven_one k).symm
    _ ≤ roundHalfEven n d := roundHalfEven_mono Nat.one_pos hd (by simpa using h)

namespace Binary64

/-- The size of a double, without its sign. -/
def magnitude (x : Binary64) : ℚ :=
  x.mantissa * 2 ^ x.exponent

/-- The number that a double stands for. -/
def value (x : Binary64) : ℚ :=
  if x.negative then -x.magnitude else x.magnitude

theorem magnitude_nonneg (x : Binary64) : 0 ≤ x.magnitude := by
  unfold magnitude
  positivity

theorem ratio_pos (x : Binary64) : 0 < x.ratio.2 := by
  unfold ratio
  split
  · exact Nat.one_pos
  · exact Nat.pow_pos (by decide)

/-- The exact fraction of a double is its size. -/
theorem ratio_eq (x : Binary64) : (x.ratio.1 : ℚ) / x.ratio.2 = x.magnitude := by
  unfold ratio magnitude
  split
  · rename_i hexp
    obtain ⟨k, hk⟩ := Int.eq_ofNat_of_zero_le hexp
    simp [hk, zpow_natCast]
  · rename_i hexp
    obtain ⟨k, hk⟩ := Int.eq_ofNat_of_zero_le (a := -x.exponent) (by omega)
    have hexponent : x.exponent = -(k : Int) := by omega
    simp [hexponent, zpow_neg, zpow_natCast, div_eq_mul_inv]

/-- A fraction measured in steps of `2 ^ e`. -/
theorem scale_eq (num : Nat) {den : Nat} (hden : 0 < den) (e : Int) :
    0 < (scale num den e).2 ∧
      ((scale num den e).1 : ℚ) / (scale num den e).2 * 2 ^ e = num / den := by
  have hden' : (den : ℚ) ≠ 0 := by positivity
  unfold scale
  split
  · rename_i hexp
    obtain ⟨k, hk⟩ := Int.eq_ofNat_of_zero_le hexp
    subst hk
    refine ⟨Nat.mul_pos hden (Nat.pow_pos (by decide)), ?_⟩
    simp only [Int.toNat_natCast, Nat.pow_eq, Nat.cast_mul, Nat.cast_pow,
      Nat.cast_ofNat, zpow_natCast]
    field_simp
  · rename_i hexp
    obtain ⟨k, hk⟩ := Int.eq_ofNat_of_zero_le (a := -e) (by omega)
    have hexponent : e = -(k : Int) := by omega
    subst hexponent
    refine ⟨hden, ?_⟩
    simp only [neg_neg, Int.toNat_natCast, Nat.pow_eq, Nat.cast_mul, Nat.cast_pow,
      Nat.cast_ofNat, zpow_neg, zpow_natCast]
    field_simp

/-- A comparison of fractions, with the denominators multiplied out. -/
theorem div_le_div_iff_mul {n d n' d' : Nat} (hd : 0 < d) (hd' : 0 < d') :
    (n : ℚ) / d ≤ n' / d' ↔ n * d' ≤ n' * d := by
  rw [div_le_div_iff₀ (by exact_mod_cast hd) (by exact_mod_cast hd')]
  exact_mod_cast Iff.rfl

/-- A fraction lies between two powers of two, by the numbers of bits above and below. -/
theorem ratio_bracket {num den : Nat} (hnum : 0 < num) (hden : 0 < den) :
    (2 : ℚ) ^ ((Nat.log2 num : Int) - Nat.log2 den - 1) ≤ num / den ∧
      (num : ℚ) / den < 2 ^ ((Nat.log2 num : Int) - Nat.log2 den + 1) := by
  have hlow : 2 ^ Nat.log2 num ≤ num := Nat.log2_self_le (by omega)
  have hhigh : num < 2 ^ (Nat.log2 num + 1) := Nat.lt_log2_self
  have hlow' : 2 ^ Nat.log2 den ≤ den := Nat.log2_self_le (by omega)
  have hhigh' : den < 2 ^ (Nat.log2 den + 1) := Nat.lt_log2_self
  generalize Nat.log2 num = a at hlow hhigh
  generalize Nat.log2 den = b at hlow' hhigh'
  have hbelow : (2 : ℚ) ^ ((a : Int) - b - 1) = (2 ^ a : Nat) / (2 ^ (b + 1) : Nat) := by
    rw [show (a : Int) - b - 1 = (a : Int) - ((b + 1 : Nat) : Int) by push_cast; ring,
      zpow_sub₀ two_ne_zero, zpow_natCast, zpow_natCast]
    push_cast
    rfl
  have habove : (2 : ℚ) ^ ((a : Int) - b + 1) = (2 ^ (a + 1) : Nat) / (2 ^ b : Nat) := by
    rw [show (a : Int) - b + 1 = ((a + 1 : Nat) : Int) - (b : Int) by push_cast; ring,
      zpow_sub₀ two_ne_zero, zpow_natCast, zpow_natCast]
    push_cast
    rfl
  constructor
  · rw [hbelow, div_le_div_iff_mul (Nat.pow_pos (by decide)) hden]
    exact Nat.mul_le_mul hlow (Nat.le_of_lt hhigh')
  · rw [habove, ← not_le, div_le_div_iff_mul (Nat.pow_pos (by decide)) hden, not_le]
    calc num * 2 ^ b ≤ num * den := Nat.mul_le_mul_left _ hlow'
      _ < 2 ^ (a + 1) * den := Nat.mul_lt_mul_of_pos_right hhigh hden

/-- A fraction fits 53 bits with the exponent that is picked for it, and with no smaller one that
is allowed. -/
theorem pickExponent_spec {num den : Nat} (hnum : 0 < num) (hden : 0 < den) :
    minExponent ≤ pickExponent num den ∧
      (num : ℚ) / den < 2 ^ 53 * 2 ^ pickExponent num den ∧
      (pickExponent num den = minExponent ∨
        2 ^ 52 * 2 ^ pickExponent num den ≤ (num : ℚ) / den) := by
  obtain ⟨hlow, hhigh⟩ := ratio_bracket hnum hden
  have hpower (k : Nat) (e : Int) : (2 : ℚ) ^ k * 2 ^ e = 2 ^ ((k : Int) + e) := by
    rw [zpow_add₀ two_ne_zero, zpow_natCast]
  unfold pickExponent
  dsimp only
  generalize hguess : (Nat.log2 num : Int) - Nat.log2 den - 53 = guess
  obtain ⟨hpos, hscale⟩ := scale_eq num hden guess
  generalize scale num den guess = scaled at hpos hscale
  -- the guess, or one more, leaves exactly 53 bits
  have hexact : ∃ e, (if scaled.1 / scaled.2 < Nat.pow 2 53 then guess else guess + 1) = e ∧
      (num : ℚ) / den < 2 ^ 53 * 2 ^ e ∧ 2 ^ 52 * 2 ^ e ≤ (num : ℚ) / den := by
    have hstep : (0 : ℚ) < 2 ^ guess := zpow_pos two_pos _
    split
    · rename_i hfits
      refine ⟨guess, rfl, ?_, ?_⟩
      · rw [← hscale]
        refine mul_lt_mul_of_pos_right ?_ hstep
        rw [div_lt_iff₀ (by exact_mod_cast hpos)]
        exact_mod_cast (Nat.div_lt_iff_lt_mul hpos).mp hfits
      · rw [hpower, show ((52 : Nat) : Int) + guess
          = (Nat.log2 num : Int) - Nat.log2 den - 1 by push_cast; omega]
        exact hlow
    · rename_i hmore
      refine ⟨guess + 1, rfl, ?_, ?_⟩
      · rw [hpower, show ((53 : Nat) : Int) + (guess + 1)
          = (Nat.log2 num : Int) - Nat.log2 den + 1 by push_cast; omega]
        exact hhigh
      · rw [hpower, show ((52 : Nat) : Int) + (guess + 1) = ((53 : Nat) : Int) + guess by
          push_cast; omega, ← hpower, ← hscale]
        refine mul_le_mul_of_nonneg_right ?_ hstep.le
        rw [le_div_iff₀ (by exact_mod_cast hpos)]
        exact_mod_cast (Nat.le_div_iff_mul_le hpos).mp (Nat.le_of_not_lt hmore)
  obtain ⟨e, he, hfits, hneeds⟩ := hexact
  rw [he]
  split
  · rename_i hsmall
    refine ⟨le_refl _, hfits.trans_le ?_, .inl rfl⟩
    exact mul_le_mul_of_nonneg_left (zpow_le_zpow_right₀ one_le_two hsmall.le) (by norm_num)
  · rename_i hlarge
    exact ⟨not_lt.mp hlarge, hfits, .inr hneeds⟩

/-- The mantissa of a fraction before a full one is carried over. -/
def roundedMantissa (num den : Nat) : Nat :=
  roundHalfEven (scale num den (pickExponent num den)).1 (scale num den (pickExponent num den)).2

/-- The exponent of a fraction when a full mantissa has been carried over. -/
def roundedExponent (num den : Nat) : Int :=
  pickExponent num den + if roundedMantissa num den = 2 ^ 53 then 1 else 0

theorem ofRatio_of_pos (negative : Bool) {num : Nat} (hnum : 0 < num) (den : Nat) :
    ofRatio negative num den =
      if roundedMantissa num den = 2 ^ 53 then
        if maxExponent < pickExponent num den + 1 then none
        else some ⟨negative, 2 ^ 52, pickExponent num den + 1⟩
      else if maxExponent < pickExponent num den then none
      else some ⟨negative, roundedMantissa num den, pickExponent num den⟩ := by
  unfold ofRatio
  rw [if_neg (Nat.ne_of_gt hnum)]
  by_cases hfull : roundedMantissa num den = 2 ^ 53
  · have hround := hfull
    unfold roundedMantissa at hround
    simp only [hround, hfull, Nat.pow_eq, if_true]
  · have hround := hfull
    unfold roundedMantissa at hround
    simp only [hfull, Nat.pow_eq, if_false, if_neg hround]
    rfl

/-- A fraction is rounded to the nearest mantissa of its exponent, unless that is too large. -/
theorem ofRatio_eq (negative : Bool) {num : Nat} (hnum : 0 < num) (den : Nat) :
    (maxExponent < roundedExponent num den → ofRatio negative num den = none) ∧
    (roundedExponent num den ≤ maxExponent → ∃ x, ofRatio negative num den = some x ∧
      x.negative = negative ∧
      x.magnitude = roundedMantissa num den * 2 ^ pickExponent num den) := by
  rw [ofRatio_of_pos negative hnum den]
  unfold roundedExponent
  split
  · rename_i hfull
    refine ⟨fun hlarge => if_pos hlarge, fun hfits => ⟨_, if_neg (by omega), rfl, ?_⟩⟩
    simp only [magnitude, hfull, zpow_add_one₀ (two_ne_zero (α := ℚ))]
    push_cast
    ring
  · rw [Int.add_zero]
    exact ⟨fun hlarge => if_pos hlarge, fun hfits => ⟨_, if_neg (by omega), rfl, rfl⟩⟩

/-- The rounded mantissa has 53 bits, or is the next power of two; with all but the least exponent
it has no fewer. -/
theorem roundedMantissa_spec {num den : Nat} (hnum : 0 < num) (hden : 0 < den) :
    roundedMantissa num den ≤ 2 ^ 53 ∧
      (pickExponent num den = minExponent ∨ 2 ^ 52 ≤ roundedMantissa num den) := by
  obtain ⟨-, hfits, hneeds⟩ := pickExponent_spec hnum hden
  obtain ⟨hpos, hscale⟩ := scale_eq num hden (pickExponent num den)
  have hstep : (0 : ℚ) < 2 ^ pickExponent num den := zpow_pos two_pos _
  have hpos' : (0 : ℚ) < (scale num den (pickExponent num den)).2 := by exact_mod_cast hpos
  rw [← hscale] at hfits hneeds
  refine ⟨roundHalfEven_le hpos ?_, hneeds.imp_right fun hfull => le_roundHalfEven hpos ?_⟩
  · have hlt := lt_of_mul_lt_mul_right hfits hstep.le
    rw [div_lt_iff₀ hpos'] at hlt
    exact_mod_cast hlt.le
  · have hle := le_of_mul_le_mul_right hfull hstep
    rw [le_div_iff₀ hpos'] at hle
    exact_mod_cast hle

/-- The largest mantissa with one exponent is no more than the least full one with a larger. -/
theorem two_pow_53_mul_le {e e' : Int} (h : e < e') :
    (2 : ℚ) ^ 53 * 2 ^ e ≤ 2 ^ 52 * 2 ^ e' := by
  calc (2 : ℚ) ^ 53 * 2 ^ e = 2 ^ 52 * 2 ^ (e + 1) := by
        rw [zpow_add_one₀ (two_ne_zero (α := ℚ))]
        ring
    _ ≤ 2 ^ 52 * 2 ^ e' :=
        mul_le_mul_of_nonneg_left (zpow_le_zpow_right₀ one_le_two (by omega)) (by norm_num)

section order

variable {num den num' den' : Nat} (hnum : 0 < num) (hden : 0 < den) (hnum' : 0 < num')
  (hden' : 0 < den') (h : (num : ℚ) / den ≤ num' / den')

include hnum hden hnum' hden' h

/-- A larger fraction has no smaller an exponent. -/
theorem pickExponent_mono : pickExponent num den ≤ pickExponent num' den' := by
  obtain ⟨-, -, hneeds⟩ := pickExponent_spec hnum hden
  obtain ⟨hleast', hfits', -⟩ := pickExponent_spec hnum' hden'
  by_contra hlt
  have hlarger : pickExponent num' den' < pickExponent num den := by omega
  have hfull := hneeds.resolve_left (by omega)
  have hless : (num : ℚ) / den < 2 ^ 52 * 2 ^ pickExponent num den :=
    h.trans_lt (hfits'.trans_le (two_pow_53_mul_le hlarger))
  exact absurd hfull (not_le.mpr hless)

omit hnum hnum' in
/-- On one grid a larger fraction has no smaller a mantissa. -/
theorem roundedMantissa_mono (heq : pickExponent num den = pickExponent num' den') :
    roundedMantissa num den ≤ roundedMantissa num' den' := by
  obtain ⟨hpos, hscale⟩ := scale_eq num hden (pickExponent num den)
  obtain ⟨hpos', hscale'⟩ := scale_eq num' hden' (pickExponent num' den')
  rw [← hscale, ← hscale', heq] at h
  unfold roundedMantissa
  rw [heq] at hpos ⊢
  refine roundHalfEven_mono hpos hpos' ((div_le_div_iff_mul hpos hpos').mp ?_)
  exact le_of_mul_le_mul_right h (zpow_pos two_pos _)

theorem roundedExponent_mono : roundedExponent num den ≤ roundedExponent num' den' := by
  obtain ⟨hbits', -⟩ := roundedMantissa_spec hnum' hden'
  unfold roundedExponent
  rcases Int.lt_or_eq_of_le (pickExponent_mono hnum hden hnum' hden' h) with hlt | heq
  · split <;> split <;> omega
  · have hmantissa := roundedMantissa_mono hden hden' h heq
    split <;> split <;> omega

/-- A larger fraction is rounded to no less. -/
theorem rounded_mono :
    (roundedMantissa num den : ℚ) * 2 ^ pickExponent num den
      ≤ roundedMantissa num' den' * 2 ^ pickExponent num' den' := by
  rcases Int.lt_or_eq_of_le (pickExponent_mono hnum hden hnum' hden' h) with hlt | heq
  · -- on a coarser grid every full mantissa is larger
    obtain ⟨hleast, -, -⟩ := pickExponent_spec hnum hden
    obtain ⟨hbits, -⟩ := roundedMantissa_spec hnum hden
    have hfull : 2 ^ 52 ≤ roundedMantissa num' den' :=
      (roundedMantissa_spec hnum' hden').2.resolve_left (by omega)
    calc (roundedMantissa num den : ℚ) * 2 ^ pickExponent num den
        ≤ 2 ^ 53 * 2 ^ pickExponent num den := by gcongr; exact_mod_cast hbits
      _ ≤ 2 ^ 52 * 2 ^ pickExponent num' den' := two_pow_53_mul_le hlt
      _ ≤ roundedMantissa num' den' * 2 ^ pickExponent num' den' := by
          gcongr
          exact_mod_cast hfull
  · have hmantissa := roundedMantissa_mono hden hden' h heq
    rw [heq]
    gcongr

end order

/-- **Rounding keeps the order.**  What is at most a fraction that has a double has one itself, and
a double that is at most the other. -/
theorem ofRatio_mono {num den num' den' : Nat} (hden : 0 < den) (hden' : 0 < den')
    (h : num * den' ≤ num' * den) (negative negative' : Bool) {y : Binary64}
    (hy : ofRatio negative' num' den' = some y) :
    ∃ x, ofRatio negative num den = some x ∧ x.negative = negative ∧
      x.magnitude ≤ y.magnitude := by
  rcases Nat.eq_zero_or_pos num with rfl | hnum
  · refine ⟨zero negative, if_pos rfl, rfl, ?_⟩
    have hzero : (zero negative).magnitude = 0 := by simp [magnitude, zero]
    rw [hzero]
    exact y.magnitude_nonneg
  have hnum' : 0 < num' := by
    refine Nat.pos_of_mul_pos_right (b := den) ?_
    exact Nat.lt_of_lt_of_le (Nat.mul_pos hnum hden') h
  have hvalue : (num : ℚ) / den ≤ num' / den' := (div_le_div_iff_mul hden hden').mpr h
  obtain ⟨hlarge', hfinite'⟩ := ofRatio_eq negative' hnum' den'
  obtain ⟨-, hfinite⟩ := ofRatio_eq negative hnum den
  have hrange' : roundedExponent num' den' ≤ maxExponent := by
    by_contra hover
    rw [hlarge' (by omega)] at hy
    cases hy
  obtain ⟨y', hy', -, hmagnitude'⟩ := hfinite' hrange'
  obtain rfl : y' = y := Option.some.inj (hy'.symm.trans hy)
  obtain ⟨x, hx, hsign, hmagnitude⟩ :=
    hfinite ((roundedExponent_mono hnum hden hnum' hden' hvalue).trans hrange')
  refine ⟨x, hx, hsign, ?_⟩
  rw [hmagnitude, hmagnitude']
  exact rounded_mono hnum hden hnum' hden' hvalue

/-- A double of an integer has no sign. -/
theorem negative_ofNat {n : Nat} {y : Binary64} (hy : ofNat? n = some y) : y.negative = false := by
  obtain ⟨x, hx, hsign, -⟩ := ofRatio_mono Nat.one_pos Nat.one_pos (Nat.le_refl (n * 1)) false
    false hy
  rw [Option.some.inj (hy.symm.trans hx)]
  exact hsign

/-- One is a double. -/
theorem exists_one : ∃ y, ofNat? 1 = some y ∧ y.magnitude = 1 := by
  refine ⟨⟨false, 2 ^ 52, -52⟩, by decide +kernel, ?_⟩
  norm_num [magnitude, zpow_neg]

/-- A hundred is a double. -/
theorem magnitude_hundred {y : Binary64} (hy : ofNat? 100 = some y) : y.magnitude = 100 := by
  have hundred : ofNat? 100 = some ⟨false, 100 * 2 ^ 46, -46⟩ := by decide +kernel
  obtain rfl := Option.some.inj (hundred.symm.trans hy)
  norm_num [magnitude, zpow_neg]

/-- An integer other than zero is not rounded to zero. -/
theorem magnitude_ofNat_pos {n : Nat} (hn : 0 < n) {y : Binary64} (hy : ofNat? n = some y) :
    0 < y.magnitude := by
  obtain ⟨one, hone, hunit⟩ := exists_one
  obtain ⟨x, hx, -, hmagnitude⟩ := ofRatio_mono Nat.one_pos Nat.one_pos
    (Nat.mul_le_mul_right 1 hn) false false hy
  obtain rfl := Option.some.inj (hone.symm.trans hx)
  exact lt_of_lt_of_le (hunit ▸ one_pos) hmagnitude

/-- `n` times what is at most one is at most `n`, if `n` is a double. -/
theorem magnitude_mul_le {n : Nat} {x y : Binary64} (hx : x.magnitude ≤ 1)
    (hy : ofNat? n = some y) (hexact : y.magnitude = n) {z : Binary64} (hz : x.mul y = some z) :
    z.magnitude ≤ n ∧ z.negative = (x.negative != y.negative) := by
  have hle : x.ratio.1 * y.ratio.1 * 1 ≤ n * (x.ratio.2 * y.ratio.2) := by
    have hpos := x.ratio_pos
    have hpos' := y.ratio_pos
    rw [← x.ratio_eq, div_le_one₀ (by exact_mod_cast hpos)] at hx
    rw [← y.ratio_eq, div_eq_iff (by exact_mod_cast hpos'.ne')] at hexact
    have hx' : x.ratio.1 ≤ x.ratio.2 := by exact_mod_cast hx
    have hexact' : y.ratio.1 = n * y.ratio.2 := by exact_mod_cast hexact
    calc x.ratio.1 * y.ratio.1 * 1 = x.ratio.1 * (n * y.ratio.2) := by rw [hexact', Nat.mul_one]
      _ ≤ x.ratio.2 * (n * y.ratio.2) := Nat.mul_le_mul_right _ hx'
      _ = n * (x.ratio.2 * y.ratio.2) := by ring
  obtain ⟨z', hz', hsign, hmagnitude⟩ := ofRatio_mono (Nat.mul_pos x.ratio_pos y.ratio_pos)
    Nat.one_pos hle (x.negative != y.negative) false hy
  obtain rfl : z' = z := Option.some.inj (hz'.symm.trans hz)
  exact ⟨hmagnitude.trans_eq hexact, hsign⟩

/-- The quotient by a number that is no smaller is at most one. -/
theorem magnitude_div_le_one {x y z : Binary64} (h : x.magnitude ≤ y.magnitude)
    (hy : 0 < y.magnitude) (hz : x.div y = some z) :
    z.magnitude ≤ 1 ∧ z.negative = (x.negative != y.negative) := by
  obtain ⟨one, hone, hunit⟩ := exists_one
  have hpos := x.ratio_pos
  have hpos' := y.ratio_pos
  rw [← x.ratio_eq, ← y.ratio_eq, div_le_div_iff_mul hpos hpos'] at h
  rw [← y.ratio_eq, div_pos_iff_of_pos_right (by exact_mod_cast hpos')] at hy
  have hle : x.ratio.1 * y.ratio.2 * 1 ≤ 1 * (x.ratio.2 * y.ratio.1) := by
    rw [Nat.mul_one, Nat.one_mul, Nat.mul_comm x.ratio.2]
    exact h
  obtain ⟨z', hz', hsign, hmagnitude⟩ := ofRatio_mono
    (Nat.mul_pos hpos (by exact_mod_cast hy)) Nat.one_pos hle (x.negative != y.negative) false hone
  obtain rfl : z' = z := Option.some.inj (hz'.symm.trans hz)
  exact ⟨hmagnitude.trans_eq hunit, hsign⟩

end Binary64

end InferenceRouting
