/-
# Big-endian byte strings

A fixed-width unsigned integer written most significant byte first (`to_be_bytes`) and read
back (`from_be_bytes`), and the lexicographic order of byte strings (the `Ord` of `Vec<u8>`,
which `List`'s `<` is): on strings of one length it is the order of the numbers they spell
(`lt_iff_ofBytes_lt`), and writing `k` bytes then reading them back gives the number modulo
`256 ^ k` (`ofBytes_toBytes`).  Flipping the top bit of a word (`xor_two_pow`) is how a signed word
is made to sort as an unsigned one.

Nothing here is specific to one program.
-/
import Mathlib

namespace BigEndian

/-- The number a byte string spells, most significant byte first (`from_be_bytes`). -/
def ofBytes : List UInt8 → ℕ
  | [] => 0
  | b :: bs => b.toNat * 256 ^ bs.length + ofBytes bs

/-- The `k` bytes of `n` modulo `256 ^ k`, most significant first (`to_be_bytes`). -/
def toBytes : ℕ → ℕ → List UInt8
  | 0, _ => []
  | k + 1, n => UInt8.ofNat (n / 256 ^ k) :: toBytes k n

@[simp] theorem length_toBytes (k n : ℕ) : (toBytes k n).length = k := by
  induction k with
  | zero => rfl
  | succ k ih => simp [toBytes, ih]

theorem ofBytes_lt (bs : List UInt8) : ofBytes bs < 256 ^ bs.length := by
  induction bs with
  | nil => simp [ofBytes]
  | cons b bs ih =>
    have hb : b.toNat + 1 ≤ 256 := b.toNat_lt
    calc ofBytes (b :: bs) = b.toNat * 256 ^ bs.length + ofBytes bs := rfl
      _ < b.toNat * 256 ^ bs.length + 256 ^ bs.length := by omega
      _ = (b.toNat + 1) * 256 ^ bs.length := by ring
      _ ≤ 256 * 256 ^ bs.length := Nat.mul_le_mul_right _ hb
      _ = 256 ^ (b :: bs).length := by rw [List.length_cons, pow_succ, mul_comm]

/-- **Reading back what was written** gives the number modulo `256 ^ k`. -/
theorem ofBytes_toBytes (k n : ℕ) : ofBytes (toBytes k n) = n % 256 ^ k := by
  induction k with
  | zero => simp [toBytes, ofBytes, Nat.mod_one]
  | succ k ih =>
    have h256 : (2 : ℕ) ^ 8 = 256 := rfl
    rw [toBytes, ofBytes, length_toBytes, ih, UInt8.toNat_ofNat', h256, Nat.mod_pow_succ]
    ring

theorem ofBytes_append (l₁ l₂ : List UInt8) :
    ofBytes (l₁ ++ l₂) = ofBytes l₁ * 256 ^ l₂.length + ofBytes l₂ := by
  induction l₁ with
  | nil => simp [ofBytes]
  | cons b bs ih =>
    simp only [List.cons_append, ofBytes, ih, List.length_append, pow_add]
    ring

/-- Two digits of a base-`B` numeral, compared: the high one decides unless they are equal. -/
theorem mul_add_lt_mul_add_iff {a b x y B : ℕ} (hx : x < B) (hy : y < B) :
    a * B + x < b * B + y ↔ a < b ∨ a = b ∧ x < y := by
  constructor
  · intro h
    rcases lt_trichotomy a b with hab | rfl | hab
    · exact .inl hab
    · exact .inr ⟨rfl, by omega⟩
    · -- a higher high digit outweighs any low digit
      have : (b + 1) * B ≤ a * B := Nat.mul_le_mul_right _ hab
      rw [Nat.add_mul, Nat.one_mul] at this
      omega
  · rintro (hab | ⟨rfl, hxy⟩)
    · have : (a + 1) * B ≤ b * B := Nat.mul_le_mul_right _ hab
      rw [Nat.add_mul, Nat.one_mul] at this
      omega
    · omega

/-- **On strings of one length, the lexicographic order is the numeric one.** -/
theorem lt_iff_ofBytes_lt :
    ∀ {l₁ l₂ : List UInt8}, l₁.length = l₂.length → (l₁ < l₂ ↔ ofBytes l₁ < ofBytes l₂)
  | [], [], _ => by simp [ofBytes, List.not_lt_nil]
  | a :: l₁, b :: l₂, h => by
    have hlen : l₁.length = l₂.length := by simpa using h
    rw [List.cons_lt_cons_iff, lt_iff_ofBytes_lt hlen, ofBytes, ofBytes, hlen,
      mul_add_lt_mul_add_iff (hlen ▸ ofBytes_lt l₁) (ofBytes_lt l₂), UInt8.lt_iff_toNat_lt,
      UInt8.toNat_inj]

/-- **Flipping the top bit** of an `n + 1`-bit word adds or removes `2 ^ n`. -/
theorem xor_two_pow {x n : ℕ} (hx : x < 2 ^ (n + 1)) :
    x ^^^ 2 ^ n = if x < 2 ^ n then x + 2 ^ n else x - 2 ^ n := by
  -- the low bits are kept, and the top bit is flipped
  have hlow : (x ^^^ 2 ^ n) % 2 ^ n = x % 2 ^ n := by
    rw [Nat.xor_mod_two_pow, Nat.mod_self, Nat.xor_zero]
  have hhigh : (x ^^^ 2 ^ n) / 2 ^ n = (x / 2 ^ n) ^^^ 1 := by
    rw [← Nat.shiftRight_eq_div_pow, Nat.shiftRight_xor_distrib, Nat.shiftRight_eq_div_pow,
      Nat.shiftRight_eq_div_pow, Nat.div_self (Nat.two_pow_pos n)]
  have htop : x / 2 ^ n < 2 := by
    rw [Nat.div_lt_iff_lt_mul (Nat.two_pow_pos n), ← pow_succ']
    exact hx
  have hsplit := Nat.div_add_mod (x ^^^ 2 ^ n) (2 ^ n)
  have hx' := Nat.div_add_mod x (2 ^ n)
  rw [hhigh, hlow] at hsplit
  split_ifs with hlt
  · have h0 : x / 2 ^ n = 0 := Nat.div_eq_of_lt hlt
    rw [h0] at hsplit hx'
    simp at hsplit
    omega
  · have h1 : x / 2 ^ n = 1 := by
      have : 1 ≤ x / 2 ^ n := (Nat.le_div_iff_mul_le (Nat.two_pow_pos n)).mpr (by omega)
      omega
    rw [h1] at hsplit hx'
    simp at hsplit
    omega

end BigEndian
