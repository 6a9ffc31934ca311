/-
# Rounding to binary64

A finite `f64` is a rational number, and every basic `f64` operation (`+`, `-`, `*`, `/`, and
`as f64` from an integer) returns the exact result ROUNDED to the nearest binary64 number, ties
to the one with an even significand.  This module gives that rounding as a computable function
on the rationals, `F64.round`, in the form of the scaled rounding of IEEE 754: the nearest
integer, ties to even (`roundHalfEven`), of `x / 2 ^ q`, times `2 ^ q`, where the quantum `q`
is the exponent of the last significand bit in `x`'s binade, `⌊log₂ |x|⌋ - 52`, and never below
the subnormal exponent `-1074`.  The magnitude is rounded and the sign kept.

* `roundHalfEven_mono`, `floorLog2_spec`: the two facts the rest is built on;
* `round_mono`: rounding is monotone, also across binades;
* `round_intCast`: every integer of magnitude at most `2 ^ 53` is a binary64 number, and
  `2 ^ 53 + 1` is the first that rounds.

Overflow is not modelled: `round` keeps magnitudes beyond the largest finite `f64`, which IEEE
rounds to an infinity.  Nothing here is specific to one program.
-/
import Mathlib

namespace F64

/-! ## 1. Rounding to an integer, ties to even -/

/-- The integer nearest to `x`; of two equally near, the even one. -/
def roundHalfEven (x : ℚ) : ℤ :=
  let k := ⌊x⌋
  if x - k < 1 / 2 then k else if 1 / 2 < x - k then k + 1 else k + k % 2

theorem floor_le_roundHalfEven (x : ℚ) : ⌊x⌋ ≤ roundHalfEven x := by
  simp only [roundHalfEven]
  split_ifs <;> omega

theorem roundHalfEven_le_floor_add_one (x : ℚ) : roundHalfEven x ≤ ⌊x⌋ + 1 := by
  simp only [roundHalfEven]
  split_ifs <;> omega

@[simp] theorem roundHalfEven_intCast (z : ℤ) : roundHalfEven z = z := by
  simp [roundHalfEven]

theorem roundHalfEven_mono : Monotone roundHalfEven := by
  intro x y hxy
  rcases (Int.floor_le_floor hxy).lt_or_eq with hlt | heq
  · -- in different integer parts, `x` rounds to at most `⌊x⌋ + 1 ≤ ⌊y⌋`
    calc roundHalfEven x ≤ ⌊x⌋ + 1 := roundHalfEven_le_floor_add_one x
      _ ≤ ⌊y⌋ := hlt
      _ ≤ roundHalfEven y := floor_le_roundHalfEven y
  · -- in one integer part, the fractional parts are ordered as `x` and `y`
    have hfrac : x - ⌊x⌋ ≤ y - ⌊y⌋ := by rw [heq]; linarith
    simp only [roundHalfEven]
    rw [← heq] at hfrac ⊢
    split_ifs <;> first | omega | (exfalso; linarith)

@[simp] theorem roundHalfEven_zero : roundHalfEven 0 = 0 := by
  simpa using roundHalfEven_intCast 0

theorem roundHalfEven_nonneg {x : ℚ} (hx : 0 ≤ x) : 0 ≤ roundHalfEven x := by
  simpa using roundHalfEven_mono hx

/-! ## 2. The binade of a positive rational -/

/-- `⌊log₂ x⌋` for `x > 0`, from the bit lengths of numerator and denominator, which put it at
their difference or one below. -/
def floorLog2 (x : ℚ) : ℤ :=
  let l : ℤ := (x.num.natAbs.log2 : ℤ) - x.den.log2
  if (2 : ℚ) ^ l ≤ x then l else l - 1

theorem floorLog2_spec {x : ℚ} (hx : 0 < x) :
    (2 : ℚ) ^ floorLog2 x ≤ x ∧ x < 2 ^ (floorLog2 x + 1) := by
  set a := x.num.natAbs.log2
  set b := x.den.log2
  have hnum : (x.num.natAbs : ℚ) = x.num := by
    rw [Nat.cast_natAbs, Int.cast_abs, abs_of_pos (by exact_mod_cast Rat.num_pos.mpr hx)]
  have hx' : x = x.num.natAbs / x.den := by rw [hnum, Rat.num_div_den]
  have hnum0 : x.num.natAbs ≠ 0 := by simpa using (Rat.num_pos.mpr hx).ne'
  have ha1 : (2 : ℚ) ^ a ≤ x.num.natAbs := by exact_mod_cast Nat.log2_self_le hnum0
  have ha2 : (x.num.natAbs : ℚ) < 2 ^ (a + 1) := by exact_mod_cast Nat.lt_log2_self
  have hb1 : (2 : ℚ) ^ b ≤ x.den := by exact_mod_cast Nat.log2_self_le x.den_nz
  have hb2 : (x.den : ℚ) < 2 ^ (b + 1) := by exact_mod_cast Nat.lt_log2_self
  have hden : (0 : ℚ) < x.den := by exact_mod_cast x.den_pos
  -- the bit lengths put `x` strictly between `2 ^ (a - b - 1)` and `2 ^ (a - b + 1)`
  have hlow : (2 : ℚ) ^ ((a : ℤ) - b - 1) < x := by
    rw [show (a : ℤ) - b - 1 = a - (b + 1 : ℕ) by push_cast; ring,
      zpow_sub₀ two_ne_zero, zpow_natCast, zpow_natCast, hx']
    calc (2 : ℚ) ^ a / 2 ^ (b + 1) < 2 ^ a / x.den :=
          div_lt_div_of_pos_left (by positivity) hden hb2
      _ ≤ x.num.natAbs / x.den := div_le_div_of_nonneg_right ha1 hden.le
  have hup : x < (2 : ℚ) ^ ((a : ℤ) - b + 1) := by
    rw [show (a : ℤ) - b + 1 = (a + 1 : ℕ) - b by push_cast; ring,
      zpow_sub₀ two_ne_zero, zpow_natCast, zpow_natCast, hx']
    calc (x.num.natAbs : ℚ) / x.den < 2 ^ (a + 1) / x.den :=
          div_lt_div_of_pos_right ha2 hden
      _ ≤ 2 ^ (a + 1) / 2 ^ b := div_le_div_of_nonneg_left (by positivity) (by positivity) hb1
  simp only [floorLog2]
  split_ifs with h
  · exact ⟨h, hup⟩
  · exact ⟨hlow.le, by simpa using not_le.mp h⟩

theorem floorLog2_mono {x y : ℚ} (hx : 0 < x) (hxy : x ≤ y) : floorLog2 x ≤ floorLog2 y := by
  have h := ((floorLog2_spec hx).1.trans hxy).trans_lt (floorLog2_spec (hx.trans_le hxy)).2
  have := (zpow_lt_zpow_iff_right₀ (by norm_num : (1 : ℚ) < 2)).mp h
  omega

/-- The exponent of the last significand bit of a positive `x`: the binade's, or the subnormal
one below the normal range. -/
def quantum (x : ℚ) : ℤ := max (floorLog2 x - 52) (-1074)

theorem quantum_mono {x y : ℚ} (hx : 0 < x) (hxy : x ≤ y) : quantum x ≤ quantum y :=
  max_le_max_right _ (by linarith [floorLog2_mono hx hxy])

/-- At most `2 ^ 53` quanta fit below `x`. -/
theorem lt_two_pow_quantum {x : ℚ} (hx : 0 < x) : x < 2 ^ 53 * 2 ^ quantum x := by
  have hle : floorLog2 x + 1 ≤ quantum x + 53 := by unfold quantum; omega
  calc x < 2 ^ (floorLog2 x + 1) := (floorLog2_spec hx).2
    _ ≤ 2 ^ (quantum x + 53) := zpow_le_zpow_right₀ (by norm_num) hle
    _ = 2 ^ 53 * 2 ^ quantum x := by rw [zpow_add₀ two_ne_zero, mul_comm]; norm_cast

/-- In the normal range, at least `2 ^ 52` quanta fit below `x`. -/
theorem two_pow_quantum_le {x : ℚ} (hx : 0 < x) (hq : quantum x = floorLog2 x - 52) :
    2 ^ 52 * 2 ^ quantum x ≤ x := by
  calc (2 : ℚ) ^ 52 * 2 ^ quantum x = 2 ^ (quantum x + 52) := by
        rw [zpow_add₀ two_ne_zero, mul_comm]; norm_cast
    _ = 2 ^ floorLog2 x := by rw [hq, sub_add_cancel]
    _ ≤ x := (floorLog2_spec hx).1

/-! ## 3. Rounding a rational -/

/-- The binary64 number nearest to a non-negative `x`, ties to even. -/
def roundNonneg (x : ℚ) : ℚ := (roundHalfEven (x / 2 ^ quantum x) : ℚ) * 2 ^ quantum x

/-- The binary64 number nearest to `x`, ties to even: the magnitude rounded, the sign kept. -/
def round (x : ℚ) : ℚ := if x < 0 then -roundNonneg (-x) else roundNonneg x

@[simp] theorem roundNonneg_zero : roundNonneg 0 = 0 := by
  simp [roundNonneg]

theorem roundNonneg_nonneg {x : ℚ} (hx : 0 ≤ x) : 0 ≤ roundNonneg x := by
  unfold roundNonneg
  have : (0 : ℚ) ≤ roundHalfEven (x / 2 ^ quantum x) := by
    exact_mod_cast roundHalfEven_nonneg (by positivity)
  positivity

/-- Rounding inside one binade: `roundHalfEven` is monotone. -/
theorem roundNonneg_le_of_quantum_eq {x y : ℚ} (hxy : x ≤ y) (hq : quantum x = quantum y) :
    roundNonneg x ≤ roundNonneg y := by
  unfold roundNonneg
  rw [hq]
  have hdiv : x / 2 ^ quantum y ≤ y / 2 ^ quantum y :=
    div_le_div_of_nonneg_right hxy (by positivity)
  have h : (roundHalfEven (x / 2 ^ quantum y) : ℚ) ≤ roundHalfEven (y / 2 ^ quantum y) := by
    exact_mod_cast roundHalfEven_mono hdiv
  exact mul_le_mul_of_nonneg_right h (by positivity)

/-- A whole number of quanta above `x` bounds its rounding. -/
theorem roundNonneg_le_of_div_le {x : ℚ} {m : ℤ} (h : x / 2 ^ quantum x ≤ m) :
    roundNonneg x ≤ m * 2 ^ quantum x := by
  have hm : roundHalfEven (x / 2 ^ quantum x) ≤ m := by
    simpa using roundHalfEven_mono h
  unfold roundNonneg
  exact mul_le_mul_of_nonneg_right (by exact_mod_cast hm) (by positivity)

/-- A whole number of quanta below `x` bounds its rounding from below. -/
theorem le_roundNonneg_of_le_div {x : ℚ} {m : ℤ} (h : m ≤ x / 2 ^ quantum x) :
    m * 2 ^ quantum x ≤ roundNonneg x := by
  have hm : m ≤ roundHalfEven (x / 2 ^ quantum x) := by
    simpa using roundHalfEven_mono h
  unfold roundNonneg
  exact mul_le_mul_of_nonneg_right (by exact_mod_cast hm) (by positivity)

/-- `x` rounds to at most `2 ^ 53` of its quanta. -/
theorem roundNonneg_le {x : ℚ} (hx : 0 < x) : roundNonneg x ≤ 2 ^ 53 * 2 ^ quantum x := by
  have hdiv : x / 2 ^ quantum x ≤ ((2 ^ 53 : ℤ) : ℚ) := by
    rw [div_le_iff₀ (by positivity)]; push_cast; exact (lt_two_pow_quantum hx).le
  exact_mod_cast roundNonneg_le_of_div_le hdiv

/-- In the normal range, `x` rounds to at least `2 ^ 52` of its quanta. -/
theorem le_roundNonneg {x : ℚ} (hx : 0 < x) (hq : quantum x = floorLog2 x - 52) :
    2 ^ 52 * 2 ^ quantum x ≤ roundNonneg x := by
  have hdiv : ((2 ^ 52 : ℤ) : ℚ) ≤ x / 2 ^ quantum x := by
    rw [le_div_iff₀ (by positivity)]; push_cast; exact two_pow_quantum_le hx hq
  exact_mod_cast le_roundNonneg_of_le_div hdiv

theorem roundNonneg_mono {x y : ℚ} (hx : 0 ≤ x) (hxy : x ≤ y) :
    roundNonneg x ≤ roundNonneg y := by
  rcases hx.lt_or_eq with hx | rfl
  · rcases (quantum_mono hx hxy).lt_or_eq with hlt | heq
    · -- `y` lies in a higher binade, which starts above every rounding of `x`
      have hy : 0 < y := hx.trans_le hxy
      have hqy : quantum y = floorLog2 y - 52 := by unfold quantum at hlt ⊢; omega
      calc roundNonneg x ≤ 2 ^ 53 * 2 ^ quantum x := roundNonneg_le hx
        _ = 2 ^ 52 * 2 ^ (quantum x + 1) := by rw [zpow_add_one₀ two_ne_zero]; ring
        _ ≤ 2 ^ 52 * 2 ^ quantum y := by gcongr; norm_num; omega
        _ ≤ roundNonneg y := le_roundNonneg hy hqy
    · exact roundNonneg_le_of_quantum_eq hxy heq
  · rw [roundNonneg_zero]
    exact roundNonneg_nonneg hxy

theorem round_mono : Monotone round := by
  intro x y hxy
  unfold round
  split_ifs with hx hy hy
  · exact neg_le_neg (roundNonneg_mono (by linarith) (by linarith))
  · linarith [roundNonneg_nonneg (x := -x) (by linarith), roundNonneg_nonneg (x := y) (by linarith)]
  · exact absurd (hxy.trans_lt hy) hx
  · exact roundNonneg_mono (not_lt.mp hx) hxy

/-- An integer below `2 ^ 53` is a whole number of its quanta, which are at most `1`. -/
theorem roundNonneg_natCast_of_lt {n : ℕ} (hn : n < 2 ^ 53) : roundNonneg n = n := by
  rcases Nat.eq_zero_or_pos n with rfl | hpos
  · simp
  have hx : (0 : ℚ) < n := by exact_mod_cast hpos
  have hlog : floorLog2 n < 53 := by
    have h := (floorLog2_spec hx).1.trans_lt (show (n : ℚ) < 2 ^ (53 : ℤ) by exact_mod_cast hn)
    exact (zpow_lt_zpow_iff_right₀ (by norm_num : (1 : ℚ) < 2)).mp h
  obtain ⟨k, hk⟩ : ∃ k : ℕ, quantum n = -k := ⟨(-quantum n).toNat, by unfold quantum; omega⟩
  have hdiv : (n : ℚ) / 2 ^ quantum n = ((n * 2 ^ k : ℤ) : ℚ) := by
    rw [hk, zpow_neg, zpow_natCast, div_inv_eq_mul]; push_cast; ring
  unfold roundNonneg
  rw [hdiv, roundHalfEven_intCast, ← hdiv, div_mul_cancel₀ _ (by positivity)]

theorem roundNonneg_natCast {n : ℕ} (hn : n ≤ 2 ^ 53) : roundNonneg n = n := by
  rcases hn.lt_or_eq with hn | rfl
  · exact roundNonneg_natCast_of_lt hn
  · decide +kernel

/-- Every integer of magnitude at most `2 ^ 53` is a binary64 number. -/
theorem round_intCast {z : ℤ} (hz : z.natAbs ≤ 2 ^ 53) : round z = z := by
  unfold round
  split_ifs with h
  · have hn : -(z : ℚ) = (z.natAbs : ℕ) := by
      rw [Nat.cast_natAbs, Int.cast_abs, abs_of_neg h]
    rw [hn, roundNonneg_natCast hz, ← hn, neg_neg]
  · have hn : (z : ℚ) = (z.natAbs : ℕ) := by
      rw [Nat.cast_natAbs, Int.cast_abs, abs_of_nonneg (not_lt.mp h)]
    rw [hn, roundNonneg_natCast hz]

/-- `2 ^ 53 + 1` is not: it ties between `2 ^ 53` and `2 ^ 53 + 2`, and goes to the even
significand. -/
example : round (2 ^ 53 + 1) = 2 ^ 53 := by decide +kernel

/-! ## 4. The basic operations -/

/-- `x + y` on `f64`. -/
def add (x y : ℚ) : ℚ := round (x + y)

/-- `x - y` on `f64`. -/
def sub (x y : ℚ) : ℚ := round (x - y)

/-- `x * y` on `f64`. -/
def mul (x y : ℚ) : ℚ := round (x * y)

/-- `x / y` on `f64`, for a non-zero `y`. -/
def div (x y : ℚ) : ℚ := round (x / y)

/-- `Iterator::product` on `f64`: the products from the left, from `1.0`. -/
def prod (l : List ℚ) : ℚ := l.foldl mul 1

/-- `std::f64::consts::PI`. -/
def pi : ℚ := 884279719003555 / 2 ^ 48

/-- `std::f64::consts::E`. -/
def e : ℚ := 6121026514868073 / 2 ^ 51

end F64
