/-
# IEEE 754 binary64 numbers and their order

A binary64 number is a 64-bit word: a sign bit, an 11-bit biased exponent and a 52-bit
fraction.  Its value lies on the extended rational line `WithBot (WithTop ℚ)`: `±∞` for the
all-ones exponent with a zero fraction, and otherwise `±significand · 2 ^ (exponent - 1075)`,
where the significand carries the hidden bit `2 ^ 52` and a zero exponent (the subnormal numbers
and the two zeros) has no hidden bit and counts as the exponent `1`.  The all-ones exponent with
a non-zero fraction is a NaN, which has no value; every statement about values excludes it.

* `scaled_strictMono`: the magnitude in units of the least subnormal `2 ^ -1074` is strictly
  increasing in the 63 bits below the sign, read as one number;
* `value_lt_value_iff`, `value_eq_value_iff`: on numbers that are not NaN, the order of the
  values is the order of the signed magnitude fields (`rank`), in which the two zeros are equal.

Nothing here is specific to one program.
-/
import Mathlib

/-- A binary64 number, as its word (`f64::to_bits`, `f64::from_bits`). -/
structure Binary64 where
  bits : UInt64
deriving DecidableEq, Repr

namespace Binary64

/-- `0f64`. -/
def zero : Binary64 := ⟨0⟩

/-- `f64::NAN`, the quiet NaN. -/
def nan : Binary64 := ⟨0x7FF8000000000000⟩

/-- The sign bit. -/
def sign (x : Binary64) : Bool := decide (2 ^ 63 ≤ x.bits.toNat)

/-- The 63 bits below the sign, the exponent above the fraction, read as one number. -/
def magnitudeBits (x : Binary64) : ℕ := x.bits.toNat % 2 ^ 63

/-- The biased exponent. -/
def exponent (x : Binary64) : ℕ := x.magnitudeBits / 2 ^ 52

/-- The fraction. -/
def fraction (x : Binary64) : ℕ := x.magnitudeBits % 2 ^ 52

/-- `f64::is_nan`: the all-ones exponent with a non-zero fraction. -/
def isNaN (x : Binary64) : Bool := x.exponent == 2047 && x.fraction != 0

/-- The magnitude of the finite number whose 63 low bits are `n`, in units of `2 ^ -1074`: the
significand times `2 ^ (exponent - 1)`, where the exponent `0` counts as `1`. -/
def scaled (n : ℕ) : ℕ :=
  (if n / 2 ^ 52 = 0 then n % 2 ^ 52 else 2 ^ 52 + n % 2 ^ 52) * 2 ^ (n / 2 ^ 52 - 1)

/-- The value of a number on the extended rational line (a NaN reads as an infinity here). -/
def value (x : Binary64) : WithBot (WithTop ℚ) :=
  if x.exponent = 2047 then (if x.sign then ⊥ else ⊤)
  else ((((if x.sign then -(scaled x.magnitudeBits : ℚ) else scaled x.magnitudeBits) / 2 ^ 1074 : ℚ)
    : WithTop ℚ) : WithBot (WithTop ℚ))

/-- `==` on `f64`: neither is a NaN, and the values are equal, so that `-0.0 == 0.0`. -/
def eq (x y : Binary64) : Bool := !x.isNaN && !y.isNaN && decide (x.value = y.value)

/-- The signed magnitude field: the 63 low bits, negated under the sign bit. -/
def rank (x : Binary64) : ℤ := if x.sign then -(x.magnitudeBits : ℤ) else x.magnitudeBits

/-- The magnitude field of the infinities, the largest one that is not a NaN. -/
def infinityBits : ℕ := 2047 * 2 ^ 52

/-! ## 1. The scaled magnitude is strictly increasing -/

theorem scaled_add (e f : ℕ) (hf : f < 2 ^ 52) :
    scaled (2 ^ 52 * e + f) = (if e = 0 then f else 2 ^ 52 + f) * 2 ^ (e - 1) := by
  have hdiv : (2 ^ 52 * e + f) / 2 ^ 52 = e := by
    rw [Nat.mul_add_div (by positivity), Nat.div_eq_of_lt hf, Nat.add_zero]
  have hmod : (2 ^ 52 * e + f) % 2 ^ 52 = f := by
    rw [Nat.mul_add_mod, Nat.mod_eq_of_lt hf]
  rw [scaled, hdiv, hmod]

theorem scaled_lt_succ (n : ℕ) : scaled n < scaled (n + 1) := by
  obtain ⟨e, f, hf, rfl⟩ : ∃ e f, f < 2 ^ 52 ∧ n = 2 ^ 52 * e + f :=
    ⟨n / 2 ^ 52, n % 2 ^ 52, Nat.mod_lt _ (by positivity), (Nat.div_add_mod n _).symm⟩
  have hpow : 0 < 2 ^ (e - 1) := by positivity
  rcases Nat.lt_or_ge (f + 1) (2 ^ 52) with hnext | hcarry
  · -- the fraction steps up within one exponent
    rw [scaled_add e f hf, Nat.add_assoc, scaled_add e (f + 1) hnext]
    apply Nat.mul_lt_mul_of_pos_right _ hpow
    split_ifs <;> omega
  · -- the fraction wraps to zero and the exponent steps up
    have hsucc : 2 ^ 52 * e + f + 1 = 2 ^ 52 * (e + 1) + 0 := by omega
    rw [scaled_add e f hf, hsucc, scaled_add (e + 1) 0 (by positivity),
      if_neg (Nat.succ_ne_zero e), Nat.add_sub_cancel, Nat.add_zero]
    rcases Nat.eq_zero_or_pos e with rfl | he
    · simp only [if_pos, Nat.zero_sub, pow_zero, Nat.mul_one]
      omega
    · have htwice : 2 ^ e = 2 * 2 ^ (e - 1) := by
        rw [← pow_succ']
        congr 1
        omega
      rw [if_neg he.ne', htwice, ← Nat.mul_assoc]
      exact Nat.mul_lt_mul_of_pos_right (by omega) hpow

theorem scaled_strictMono : StrictMono scaled := strictMono_nat_of_lt_succ scaled_lt_succ

@[simp] theorem scaled_zero : scaled 0 = 0 := by simp [scaled]

theorem scaled_pos {n : ℕ} (hn : 0 < n) : 0 < scaled n := scaled_zero ▸ scaled_strictMono hn

/-! ## 2. Values as a function of the rank -/

/-- The scaled magnitude, negated for a negative rank. -/
def signedScaled (r : ℤ) : ℤ := if r < 0 then -(scaled (-r).toNat : ℤ) else scaled r.toNat

theorem signedScaled_strictMono : StrictMono signedScaled := by
  intro r s hrs
  unfold signedScaled
  by_cases hr : r < 0 <;> by_cases hs : s < 0
  · rw [if_pos hr, if_pos hs, neg_lt_neg_iff, Nat.cast_lt]
    exact scaled_strictMono (by omega)
  · have hpos : 0 < scaled (-r).toNat := scaled_pos (by omega)
    rw [if_pos hr, if_neg hs]
    omega
  · omega
  · rw [if_neg hr, if_neg hs, Nat.cast_lt]
    exact scaled_strictMono (by omega)

/-- The value of the number that is not a NaN with a given rank. -/
def ofRank (r : ℤ) : WithBot (WithTop ℚ) :=
  if r ≤ -(infinityBits : ℤ) then ⊥
  else if (infinityBits : ℤ) ≤ r then ⊤
  else (((signedScaled r : ℚ) / 2 ^ 1074 : ℚ) : WithTop ℚ)

theorem ofRank_strictMonoOn :
    StrictMonoOn ofRank (Set.Icc (-(infinityBits : ℤ)) infinityBits) := by
  intro r ⟨_, hrB⟩ s ⟨hsB, _⟩ hrs
  unfold ofRank
  by_cases hbot : r ≤ -(infinityBits : ℤ)
  · -- only the lowest rank is `-∞`
    rw [if_pos hbot, if_neg (by omega : ¬ s ≤ -(infinityBits : ℤ))]
    split_ifs
    · exact WithBot.bot_lt_coe ⊤
    · exact WithBot.bot_lt_coe _
  · rw [if_neg hbot, if_neg (by omega : ¬ (infinityBits : ℤ) ≤ r),
      if_neg (by omega : ¬ s ≤ -(infinityBits : ℤ))]
    split_ifs
    · exact WithBot.coe_lt_coe.mpr (WithTop.coe_lt_top _)
    · rw [WithBot.coe_lt_coe, WithTop.coe_lt_coe]
      apply div_lt_div_of_pos_right _ (by positivity)
      exact Int.cast_lt.mpr (signedScaled_strictMono hrs)

theorem magnitudeBits_lt (x : Binary64) : x.magnitudeBits < 2 ^ 63 := Nat.mod_lt _ (by positivity)

theorem exponent_le (x : Binary64) : x.exponent ≤ 2047 := by
  have := x.magnitudeBits_lt
  unfold exponent
  omega

/-- Outside the infinities and NaNs, the magnitude field is below that of the infinities. -/
theorem magnitudeBits_lt_infinityBits {x : Binary64} (h : x.exponent ≠ 2047) :
    x.magnitudeBits < infinityBits := by
  have := x.exponent_le
  unfold exponent at h this
  unfold infinityBits
  omega

/-- A number with the all-ones exponent that is not a NaN is an infinity. -/
theorem magnitudeBits_of_exponent {x : Binary64} (hx : x.isNaN = false) (h : x.exponent = 2047) :
    x.magnitudeBits = infinityBits := by
  have hfrac : x.fraction = 0 := by simpa [isNaN, h] using hx
  unfold exponent at h
  unfold fraction at hfrac
  unfold infinityBits
  omega

theorem rank_mem_Icc {x : Binary64} (hx : x.isNaN = false) :
    x.rank ∈ Set.Icc (-(infinityBits : ℤ)) infinityBits := by
  have hle : x.magnitudeBits ≤ infinityBits := by
    by_cases h : x.exponent = 2047
    · exact (magnitudeBits_of_exponent hx h).le
    · exact (magnitudeBits_lt_infinityBits h).le
  unfold rank
  split_ifs <;> constructor <;> omega

theorem value_eq_ofRank {x : Binary64} (hx : x.isNaN = false) : x.value = ofRank x.rank := by
  unfold value ofRank rank
  by_cases h : x.exponent = 2047
  · -- an infinity: its rank is the largest or the lowest
    have hinf := magnitudeBits_of_exponent hx h
    have hB : (0 : ℤ) < infinityBits := by unfold infinityBits; positivity
    rw [if_pos h, hinf]
    cases x.sign
    · simp only [Bool.false_eq_true, if_false]
      rw [if_neg (by omega), if_pos le_rfl]
    · simp only [if_true]
      rw [if_pos le_rfl]
  · -- a finite number: its rank lies strictly between those of the infinities
    have hlt := magnitudeBits_lt_infinityBits h
    rw [if_neg h]
    cases x.sign
    · simp only [Bool.false_eq_true, if_false]
      rw [if_neg (by omega), if_neg (by omega)]
      simp [signedScaled]
    · simp only [if_true]
      rw [if_neg (by omega), if_neg (by omega)]
      rcases Nat.eq_zero_or_pos x.magnitudeBits with h0 | hpos
      · simp [h0, signedScaled]
      · have hneg : -(x.magnitudeBits : ℤ) < 0 := by omega
        have hsigned : signedScaled (-(x.magnitudeBits : ℤ)) = -(scaled x.magnitudeBits : ℤ) := by
          rw [signedScaled, if_pos hneg, neg_neg, Int.toNat_natCast]
        rw [hsigned]
        push_cast
        rfl

/-! ## 3. The order of values is the order of ranks -/

theorem value_lt_value_iff {x y : Binary64} (hx : x.isNaN = false) (hy : y.isNaN = false) :
    x.value < y.value ↔ x.rank < y.rank := by
  rw [value_eq_ofRank hx, value_eq_ofRank hy]
  exact ofRank_strictMonoOn.lt_iff_lt (rank_mem_Icc hx) (rank_mem_Icc hy)

theorem value_eq_value_iff {x y : Binary64} (hx : x.isNaN = false) (hy : y.isNaN = false) :
    x.value = y.value ↔ x.rank = y.rank := by
  rw [value_eq_ofRank hx, value_eq_ofRank hy]
  exact ofRank_strictMonoOn.injOn.eq_iff (rank_mem_Icc hx) (rank_mem_Icc hy)

theorem isNaN_zero : zero.isNaN = false := by decide

theorem rank_zero : zero.rank = 0 := by decide

/-- `x == 0.0` for the two zeros and no other number. -/
theorem eq_zero_iff {x : Binary64} (hx : x.isNaN = false) : x.eq zero = true ↔ x.rank = 0 := by
  rw [eq, hx, isNaN_zero, Bool.not_false, Bool.true_and, Bool.true_and, decide_eq_true_iff,
    value_eq_value_iff hx isNaN_zero, rank_zero]

/-- The word is the sign bit above the magnitude field. -/
theorem bits_toNat (x : Binary64) :
    x.bits.toNat = (if x.sign then 2 ^ 63 else 0) + x.magnitudeBits := by
  have := x.bits.toNat_lt
  unfold sign magnitudeBits
  split_ifs with h <;> simp at h <;> omega

theorem rank_abs_lt (x : Binary64) : -(2 ^ 63 : ℤ) < x.rank ∧ x.rank < 2 ^ 63 := by
  have := x.magnitudeBits_lt
  unfold rank
  split_ifs <;> constructor <;> omega

end Binary64
