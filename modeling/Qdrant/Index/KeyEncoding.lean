/-
# The key encoding of the numeric index

`index/key_encoding.rs`.  The numeric index keeps its keys in a `BTreeMap<Vec<u8>, _>`, ordered
as byte strings.  A key is a value followed by the point offset, both big-endian:

* an `f64` takes nine bytes: a tag for its class (NaN `0`, negative `1`, zero `2`, positive
  `3`) and then the word of a positive number or the complemented word of a negative one; a
  NaN and the two zeros take eight zero bytes;
* an `i64` takes eight bytes: its two's complement word with the sign bit flipped.

Decoding reads the tag, the eight value bytes and the last four bytes back; a slice or a tag
the source would panic on gives `none`.

* `f64Key_lt_iff`, `i64Key_lt_iff`: two keys compare as byte strings as their
  `(value, offset)` pairs compare as `Point`s of the index model, for `f64` values that are not
  NaN (where `-0.0` and `0.0` are one value) and for every `i64`;
* `decodeF64Key_encodeF64Key`, `decodeI64Key_encodeI64Key`: decoding a key gives back the offset
  and the value, a zero of either sign coming back as `0.0`;
* `f64Key_bounds`, `i64Key_bounds`: the key bounds `NumericIndex::filter` builds from a value
  with the offsets `u32::MAX` and `0` admit exactly the keys whose value passes the comparison;
* `keys_ordered_and_invertible` gathers them.  This is why `Index/NumericIndex.lean` may key its
  map by `Point` directly.
-/
import Qdrant.Lib.BigEndian
import Qdrant.Lib.Binary64
import Qdrant.Index.NumericIndex

namespace Qdrant

open BigEndian

/-! ## 1. The model -/

/-- `FLOAT_NAN`. -/
def floatNan : UInt8 := 0x00

/-- `FLOAT_NEG`. -/
def floatNeg : UInt8 := 0x01

/-- `FLOAT_ZERO`. -/
def floatZero : UInt8 := 0x02

/-- `FLOAT_POS`. -/
def floatPos : UInt8 := 0x03

/-- `F64_KEY_LEN`. -/
def f64KeyLen : ℕ := 13

/-- `I64_KEY_LEN`. -/
def i64KeyLen : ℕ := 12

/-- `buf[lo..hi]`; `none` where the slice panics. -/
def sliceRange (buf : List UInt8) (lo hi : ℕ) : Option (List UInt8) :=
  if lo ≤ hi ∧ hi ≤ buf.length then some ((buf.take hi).drop lo) else none

/-- `buf[lo..]`; `none` where the slice panics. -/
def sliceFrom (buf : List UInt8) (lo : ℕ) : Option (List UInt8) :=
  if lo ≤ buf.length then some (buf.drop lo) else none

/-- `try_into` a `[u8; n]`, unwrapped: `none` unless the slice has `n` bytes. -/
def tryInto (n : ℕ) (bs : List UInt8) : Option (List UInt8) :=
  if bs.length = n then some bs else none

/-- `encode_f64_ascending`: the bytes it appends. -/
def encodeF64Ascending (val : Binary64) : List UInt8 :=
  if val.isNaN then floatNan :: List.replicate 8 0
  else if val.eq Binary64.zero then floatZero :: List.replicate 8 0
  else
    let fAsU64 := val.bits
    if fAsU64 &&& ((1 : UInt64) <<< 63) != 0 then
      let f := ~~~fAsU64
      floatNeg :: toBytes 8 f.toNat
    else floatPos :: toBytes 8 fAsU64.toNat

/-- `decode_f64_ascending`. -/
def decodeF64Ascending (buf : List UInt8) : Option Binary64 :=
  buf.head?.bind fun tag =>
    if tag = floatNan then some Binary64.nan
    else if tag = floatNeg then
      ((sliceRange buf 1 9).bind (tryInto 8)).map fun bs =>
        let u := UInt64.ofNat (ofBytes bs)
        ⟨~~~u⟩
    else if tag = floatZero then some Binary64.zero
    else if tag = floatPos then
      ((sliceRange buf 1 9).bind (tryInto 8)).map fun bs => ⟨UInt64.ofNat (ofBytes bs)⟩
    else none

/-- `encode_i64_ascending`: the bytes it appends. -/
def encodeI64Ascending (val : Int64) : List UInt8 :=
  let i := val ^^^ Int64.minValue
  toBytes 8 i.toBitVec.toNat

/-- `decode_i64_ascending`. -/
def decodeI64Ascending (buf : List UInt8) : Option Int64 :=
  ((sliceRange buf 0 8).bind (tryInto 8)).map fun bs =>
    let i := Int64.ofBitVec (BitVec.ofNat 64 (ofBytes bs))
    i ^^^ Int64.minValue

/-- `encode_f64_key_ascending`. -/
def encodeF64KeyAscending (keyVal : Binary64) (pointOffset : UInt32) : List UInt8 :=
  encodeF64Ascending keyVal ++ toBytes 4 pointOffset.toNat

/-- `decode_f64_key_ascending`: the offset from the last four bytes, and the value. -/
def decodeF64KeyAscending (buf : List UInt8) : Option (UInt32 × Binary64) :=
  ((sliceFrom buf (f64KeyLen - 4)).bind (tryInto 4)).bind fun offsetBytes =>
    (decodeF64Ascending buf).map fun val => (UInt32.ofNat (ofBytes offsetBytes), val)

/-- `encode_i64_key_ascending`. -/
def encodeI64KeyAscending (keyVal : Int64) (pointOffset : UInt32) : List UInt8 :=
  encodeI64Ascending keyVal ++ toBytes 4 pointOffset.toNat

/-- `decode_i64_key_ascending`: the offset from the last four bytes, and the value. -/
def decodeI64KeyAscending (buf : List UInt8) : Option (UInt32 × Int64) :=
  ((sliceFrom buf (i64KeyLen - 4)).bind (tryInto 4)).bind fun offsetBytes =>
    (decodeI64Ascending buf).map fun val => (UInt32.ofNat (ofBytes offsetBytes), val)

/-! ## 2. The numbers the keys spell -/

theorem signBit_ne_zero (u : UInt64) :
    (u &&& ((1 : UInt64) <<< 63) != 0) = decide (2 ^ 63 ≤ u.toNat) := by
  have hu := u.toNat_lt
  have hbit : ((1 : UInt64) <<< 63).toNat = 2 ^ 63 := by decide
  rw [Bool.eq_iff_iff, bne_iff_ne, ne_eq, ← UInt64.toNat_inj, UInt64.toNat_and, hbit,
    Nat.and_two_pow, decide_eq_true_iff, Nat.testBit_eq_decide_div_mod_eq, UInt64.toNat_zero]
  by_cases h : u.toNat / 2 ^ 63 % 2 = 1
  · simp only [h, decide_true, Bool.toNat_true]
    omega
  · simp only [h, decide_false, Bool.toNat_false]
    omega

@[simp] theorem length_encodeF64Ascending (val : Binary64) : (encodeF64Ascending val).length = 9 := by
  simp only [encodeF64Ascending]
  split_ifs <;> simp

/-- The number the nine bytes of a value that is not NaN spell, from its rank: the negative
values below `2 ^ 64 + 2 ^ 63`, the zeros at `2 ^ 65`, the positive values above `3 · 2 ^ 64`. -/
def f64Code (r : ℤ) : ℤ :=
  if r < 0 then 2 ^ 64 + 2 ^ 63 - 1 + r else if r = 0 then 2 ^ 65 else 3 * 2 ^ 64 + r

theorem f64Code_lt_iff {r s : ℤ} (hr : -(2 ^ 63 : ℤ) < r) (hs : s < 2 ^ 63) :
    f64Code r < f64Code s ↔ r < s := by
  unfold f64Code
  split_ifs <;> omega

theorem f64Code_eq_iff {r s : ℤ} (hr : -(2 ^ 63 : ℤ) < r) (hs : -(2 ^ 63 : ℤ) < s) :
    f64Code r = f64Code s ↔ r = s := by
  unfold f64Code
  split_ifs <;> omega

/-- A tag followed by an eight-byte word. -/
theorem ofBytes_cons_toBytes (tag : UInt8) {n : ℕ} (hn : n < 2 ^ 64) :
    ofBytes (tag :: toBytes 8 n) = tag.toNat * 2 ^ 64 + n := by
  have h256 : (256 : ℕ) ^ 8 = 2 ^ 64 := by norm_num
  rw [ofBytes, length_toBytes, ofBytes_toBytes, h256, Nat.mod_eq_of_lt hn]

theorem ofBytes_encodeF64Ascending {val : Binary64} (hval : val.isNaN = false) :
    (ofBytes (encodeF64Ascending val) : ℤ) = f64Code val.rank := by
  have hword := val.bits_toNat
  have hmag := val.magnitudeBits_lt
  simp only [encodeF64Ascending]
  rw [if_neg (by simp [hval])]
  by_cases hzero : val.eq Binary64.zero = true
  · -- both zeros take the zero tag
    rw [if_pos hzero, (Binary64.eq_zero_iff hval).mp hzero]
    decide
  · have hrank : val.rank ≠ 0 := fun h => hzero ((Binary64.eq_zero_iff hval).mpr h)
    rw [if_neg hzero, signBit_ne_zero]
    unfold Binary64.rank at hrank ⊢
    unfold f64Code
    cases hsign : val.sign
    · -- a positive number: its word as it is
      rw [hsign] at hword hrank
      simp only [Bool.false_eq_true, if_false, Nat.zero_add, decide_eq_true_iff] at hword hrank ⊢
      rw [if_neg (by omega), ofBytes_cons_toBytes floatPos val.bits.toNat_lt, if_neg (by omega),
        if_neg (by omega)]
      have htag : floatPos.toNat = 3 := rfl
      rw [htag]
      omega
    · -- a negative number: its word complemented
      have hnot : (~~~val.bits).toNat = 2 ^ 64 - 1 - val.bits.toNat := UInt64.toNat_not val.bits
      rw [hsign] at hword hrank
      simp only [if_true, decide_eq_true_iff] at hword hrank ⊢
      rw [if_pos (by omega), ofBytes_cons_toBytes floatNeg (~~~val.bits).toNat_lt, hnot,
        if_pos (by omega)]
      have htag : floatNeg.toNat = 1 := rfl
      rw [htag]
      omega

theorem ofBytes_encodeF64KeyAscending (val : Binary64) (pointOffset : UInt32) :
    ofBytes (encodeF64KeyAscending val pointOffset) =
      ofBytes (encodeF64Ascending val) * 2 ^ 32 + pointOffset.toNat := by
  have h256 : (256 : ℕ) ^ 4 = 2 ^ 32 := by norm_num
  rw [encodeF64KeyAscending, ofBytes_append, length_toBytes, ofBytes_toBytes, h256,
    Nat.mod_eq_of_lt pointOffset.toNat_lt]

@[simp] theorem length_encodeF64KeyAscending (val : Binary64) (pointOffset : UInt32) :
    (encodeF64KeyAscending val pointOffset).length = 13 := by
  simp [encodeF64KeyAscending]

/-- Flipping the sign bit of an `i64` word shifts its value up by `2 ^ 63`. -/
theorem ofBytes_encodeI64Ascending (val : Int64) :
    (ofBytes (encodeI64Ascending val) : ℤ) = val.toInt + 2 ^ 63 := by
  have hlt := val.toBitVec.isLt
  have hflip : (val ^^^ Int64.minValue).toBitVec.toNat = val.toBitVec.toNat ^^^ 2 ^ 63 := by
    rw [Int64.toBitVec_xor, Int64.toBitVec_minValue, BitVec.toNat_xor, BitVec.toNat_intMin]
    norm_num
  rw [encodeI64Ascending, ofBytes_toBytes, ← Int64.toInt_toBitVec, BitVec.toInt_eq_toNat_cond,
    hflip, xor_two_pow (by simpa using hlt)]
  have h256 : (256 : ℕ) ^ 8 = 2 ^ 64 := by norm_num
  rw [h256]
  split_ifs <;> omega

theorem ofBytes_encodeI64KeyAscending (val : Int64) (pointOffset : UInt32) :
    ofBytes (encodeI64KeyAscending val pointOffset) =
      ofBytes (encodeI64Ascending val) * 2 ^ 32 + pointOffset.toNat := by
  have h256 : (256 : ℕ) ^ 4 = 2 ^ 32 := by norm_num
  rw [encodeI64KeyAscending, ofBytes_append, length_toBytes, ofBytes_toBytes, h256,
    Nat.mod_eq_of_lt pointOffset.toNat_lt]

@[simp] theorem length_encodeI64KeyAscending (val : Int64) (pointOffset : UInt32) :
    (encodeI64KeyAscending val pointOffset).length = 12 := by
  simp [encodeI64KeyAscending, encodeI64Ascending]

/-! ## 3. Byte order is key order -/

/-- The order of `Point`: value first, then offset. -/
theorem Point.lt_iff {T : Type} [LinearOrder T] {p q : Point T} :
    p < q ↔ p.val < q.val ∨ p.val = q.val ∧ p.idx < q.idx :=
  Prod.Lex.lt_iff

theorem f64Key_lt_iff {a b : Binary64} (ha : a.isNaN = false) (hb : b.isNaN = false)
    (i j : UInt32) :
    encodeF64KeyAscending a i < encodeF64KeyAscending b j ↔
      (⟨a.value, i.toNat⟩ : Point (WithBot (WithTop ℚ))) < ⟨b.value, j.toNat⟩ := by
  -- the value bytes spell numbers in the order of the ranks
  have hlt : ofBytes (encodeF64Ascending a) < ofBytes (encodeF64Ascending b) ↔ a.rank < b.rank := by
    rw [← f64Code_lt_iff a.rank_abs_lt.1 b.rank_abs_lt.2, ← ofBytes_encodeF64Ascending ha,
      ← ofBytes_encodeF64Ascending hb]
    exact Nat.cast_lt.symm
  have heq : ofBytes (encodeF64Ascending a) = ofBytes (encodeF64Ascending b) ↔ a.rank = b.rank := by
    rw [← f64Code_eq_iff a.rank_abs_lt.1 b.rank_abs_lt.1, ← ofBytes_encodeF64Ascending ha,
      ← ofBytes_encodeF64Ascending hb]
    exact Nat.cast_inj.symm
  rw [lt_iff_ofBytes_lt (by simp), ofBytes_encodeF64KeyAscending, ofBytes_encodeF64KeyAscending,
    mul_add_lt_mul_add_iff i.toNat_lt j.toNat_lt, hlt, heq, Point.lt_iff,
    Binary64.value_lt_value_iff ha hb, Binary64.value_eq_value_iff ha hb]

theorem i64Key_lt_iff (a b : Int64) (i j : UInt32) :
    encodeI64KeyAscending a i < encodeI64KeyAscending b j ↔
      (⟨a.toInt, i.toNat⟩ : Point ℤ) < ⟨b.toInt, j.toNat⟩ := by
  have ha := ofBytes_encodeI64Ascending a
  have hb := ofBytes_encodeI64Ascending b
  have hlt : ofBytes (encodeI64Ascending a) < ofBytes (encodeI64Ascending b) ↔
      a.toInt < b.toInt := by
    constructor <;> intro h <;> omega
  have heq : ofBytes (encodeI64Ascending a) = ofBytes (encodeI64Ascending b) ↔
      a.toInt = b.toInt := by
    constructor <;> intro h <;> omega
  rw [lt_iff_ofBytes_lt (by simp), ofBytes_encodeI64KeyAscending, ofBytes_encodeI64KeyAscending,
    mul_add_lt_mul_add_iff i.toNat_lt j.toNat_lt, hlt, heq, Point.lt_iff]

/-! ## 4. Decoding gives back what was encoded -/

theorem sliceRange_cons_append {tag : UInt8} {word rest : List UInt8} (hword : word.length = 8) :
    sliceRange (tag :: (word ++ rest)) 1 9 = some word := by
  rw [sliceRange, if_pos (by simp [hword]), List.take_succ_cons, List.drop_one, List.tail_cons,
    List.take_left' hword]

theorem sliceFrom_append {key rest : List UInt8} {n : ℕ} (hkey : key.length = n) :
    sliceFrom (key ++ rest) n = some rest := by
  rw [sliceFrom, if_pos (by simp [hkey]), List.drop_left' hkey]

theorem tryInto_toBytes (n m : ℕ) : tryInto n (toBytes n m) = some (toBytes n m) := by
  rw [tryInto, if_pos (length_toBytes n m)]

/-- Reading back a written word. -/
theorem ofNat_ofBytes_toBytes (u : UInt64) : UInt64.ofNat (ofBytes (toBytes 8 u.toNat)) = u := by
  have h256 : (256 : ℕ) ^ 8 = 2 ^ 64 := by norm_num
  rw [ofBytes_toBytes, h256, Nat.mod_eq_of_lt u.toNat_lt, UInt64.ofNat_toNat]

/-- Reading back a written offset. -/
theorem ofNat_ofBytes_toBytes_offset (u : UInt32) : UInt32.ofNat (ofBytes (toBytes 4 u.toNat)) = u := by
  have h256 : (256 : ℕ) ^ 4 = 2 ^ 32 := by norm_num
  rw [ofBytes_toBytes, h256, Nat.mod_eq_of_lt u.toNat_lt, UInt32.ofNat_toNat]

theorem decodeF64Ascending_encodeF64Ascending {val : Binary64} (hval : val.isNaN = false)
    (rest : List UInt8) :
    decodeF64Ascending (encodeF64Ascending val ++ rest) =
      some (if val.eq Binary64.zero then Binary64.zero else val) := by
  simp only [encodeF64Ascending]
  rw [if_neg (by simp [hval])]
  by_cases hzero : val.eq Binary64.zero = true
  · -- the zero tag decodes to `0.0`
    rw [if_pos hzero, if_pos hzero]
    simp only [decodeF64Ascending, List.cons_append, List.head?_cons, Option.bind_some]
    rw [if_neg (by decide), if_neg (by decide), if_pos trivial]
  · rw [if_neg hzero, if_neg hzero]
    split_ifs
    · -- a negative number: the word complemented twice
      simp only [decodeF64Ascending, List.cons_append, List.head?_cons, Option.bind_some]
      rw [if_neg (by decide), if_pos trivial, sliceRange_cons_append (length_toBytes 8 _),
        Option.bind_some, tryInto_toBytes, Option.map_some, ofNat_ofBytes_toBytes, UInt64.not_not]
    · -- a positive number: the word as it is
      simp only [decodeF64Ascending, List.cons_append, List.head?_cons, Option.bind_some]
      rw [if_neg (by decide), if_neg (by decide), if_neg (by decide), if_pos trivial,
        sliceRange_cons_append (length_toBytes 8 _), Option.bind_some, tryInto_toBytes,
        Option.map_some, ofNat_ofBytes_toBytes]

theorem decodeF64Key_encodeF64Key {val : Binary64} (hval : val.isNaN = false)
    (pointOffset : UInt32) :
    decodeF64KeyAscending (encodeF64KeyAscending val pointOffset) =
      some (pointOffset, if val.eq Binary64.zero then Binary64.zero else val) := by
  have hlen : f64KeyLen - 4 = 9 := rfl
  rw [decodeF64KeyAscending, encodeF64KeyAscending, hlen,
    sliceFrom_append (length_encodeF64Ascending val), Option.bind_some, tryInto_toBytes,
    Option.bind_some, decodeF64Ascending_encodeF64Ascending hval, Option.map_some,
    ofNat_ofBytes_toBytes_offset]

theorem decodeI64Key_encodeI64Key (val : Int64) (pointOffset : UInt32) :
    decodeI64KeyAscending (encodeI64KeyAscending val pointOffset) = some (pointOffset, val) := by
  have hlen : i64KeyLen - 4 = 8 := rfl
  have hlength : (encodeI64Ascending val).length = 8 := by simp [encodeI64Ascending]
  have hword : sliceRange (encodeI64KeyAscending val pointOffset) 0 8 =
      some (encodeI64Ascending val) := by
    rw [sliceRange, if_pos (by simp), encodeI64KeyAscending, List.take_left' hlength,
      List.drop_zero]
  -- the word read back is the flipped one, and flipping twice gives the value
  have hflip : Int64.ofBitVec (BitVec.ofNat 64 (ofBytes (encodeI64Ascending val))) ^^^
      Int64.minValue = val := by
    have h256 : (256 : ℕ) ^ 8 = 2 ^ 64 := by norm_num
    rw [encodeI64Ascending, ofBytes_toBytes, h256,
      Nat.mod_eq_of_lt (val ^^^ Int64.minValue).toBitVec.isLt, BitVec.ofNat_toNat,
      BitVec.setWidth_eq, Int64.ofBitVec_toBitVec, Int64.xor_assoc, Int64.xor_self, Int64.xor_zero]
  have hread : decodeI64Ascending (encodeI64KeyAscending val pointOffset) = some val := by
    rw [decodeI64Ascending, hword, Option.bind_some, tryInto, if_pos hlength, Option.map_some, hflip]
  rw [decodeI64KeyAscending, hlen, hread, encodeI64KeyAscending, sliceFrom_append hlength,
    Option.bind_some, tryInto_toBytes, Option.bind_some, Option.map_some,
    ofNat_ofBytes_toBytes_offset]

/-! ## 5. The key bounds of `filter` -/

/-- Past the largest offset of a value lie exactly the points of greater values. -/
theorem Point.max_lt_iff {T : Type} [LinearOrder T] {v w : T} {k : ℕ} (hk : k ≤ pointOffsetMax) :
    (⟨v, pointOffsetMax⟩ : Point T) < ⟨w, k⟩ ↔ v < w := by
  rw [Point.lt_iff]
  constructor
  · rintro (hlt | ⟨-, hidx⟩)
    · exact hlt
    · exact absurd hk (Nat.not_le.mpr hidx)
  · exact Or.inl

/-- Before the offset `0` of a value lie exactly the points of smaller values. -/
theorem Point.lt_zero_iff {T : Type} [LinearOrder T] {v w : T} {k : ℕ} :
    (⟨w, k⟩ : Point T) < ⟨v, 0⟩ ↔ w < v := by
  rw [Point.lt_iff]
  exact ⟨fun h => h.resolve_right fun h => Nat.not_lt_zero _ h.2, Or.inl⟩

/-- Keys of two values whose byte order is the `Point` order: the bounds `Excluded(v, MAX)`
and `Included(v, 0)` of `gt` and `gte`, and `Excluded(v, 0)` and `Included(v, MAX)` of `lt`
and `lte`, admit the keys of `w` by the comparison of the values alone. -/
theorem keyBounds {V : Type} [LinearOrder V] {keyV keyW : UInt32 → List UInt8} {v w : V}
    (hvw : ∀ i j, keyV i < keyW j ↔ (⟨v, i.toNat⟩ : Point V) < ⟨w, j.toNat⟩)
    (hwv : ∀ i j, keyW i < keyV j ↔ (⟨w, i.toNat⟩ : Point V) < ⟨v, j.toNat⟩) (k : UInt32) :
    (keyV (UInt32.ofNat pointOffsetMax) < keyW k ↔ v < w) ∧ (keyV 0 ≤ keyW k ↔ v ≤ w) ∧
      (keyW k < keyV 0 ↔ w < v) ∧ (keyW k ≤ keyV (UInt32.ofNat pointOffsetMax) ↔ w ≤ v) := by
  have hmax : (UInt32.ofNat pointOffsetMax).toNat = pointOffsetMax := rfl
  have hk : k.toNat ≤ pointOffsetMax := by
    have := k.toNat_lt
    unfold pointOffsetMax
    omega
  have habove : keyV (UInt32.ofNat pointOffsetMax) < keyW k ↔ v < w := by
    rw [hvw, hmax, Point.max_lt_iff hk]
  have hbelow : keyW k < keyV 0 ↔ w < v := by
    rw [hwv, UInt32.toNat_zero, Point.lt_zero_iff]
  refine ⟨habove, ?_, hbelow, ?_⟩
  · rw [← List.not_lt, hbelow, not_lt]
  · rw [← List.not_lt, habove, not_lt]

/-! ## 6. The encodings together -/

theorem keys_ordered_and_invertible :
    (∀ a b : Binary64, a.isNaN = false → b.isNaN = false → ∀ i j : UInt32,
      (encodeF64KeyAscending a i < encodeF64KeyAscending b j ↔
        (⟨a.value, i.toNat⟩ : Point (WithBot (WithTop ℚ))) < ⟨b.value, j.toNat⟩) ∧
      decodeF64KeyAscending (encodeF64KeyAscending a i) =
        some (i, if a.eq Binary64.zero then Binary64.zero else a)) ∧
    (∀ (a b : Int64) (i j : UInt32),
      (encodeI64KeyAscending a i < encodeI64KeyAscending b j ↔
        (⟨a.toInt, i.toNat⟩ : Point ℤ) < ⟨b.toInt, j.toNat⟩) ∧
      decodeI64KeyAscending (encodeI64KeyAscending a i) = some (i, a)) ∧
    (∀ v w : Binary64, v.isNaN = false → w.isNaN = false → ∀ k : UInt32,
      (encodeF64KeyAscending v (UInt32.ofNat pointOffsetMax) < encodeF64KeyAscending w k ↔
        v.value < w.value) ∧
      (encodeF64KeyAscending v 0 ≤ encodeF64KeyAscending w k ↔ v.value ≤ w.value) ∧
      (encodeF64KeyAscending w k < encodeF64KeyAscending v 0 ↔ w.value < v.value) ∧
      (encodeF64KeyAscending w k ≤ encodeF64KeyAscending v (UInt32.ofNat pointOffsetMax) ↔
        w.value ≤ v.value)) ∧
    (∀ (v w : Int64) (k : UInt32),
      (encodeI64KeyAscending v (UInt32.ofNat pointOffsetMax) < encodeI64KeyAscending w k ↔
        v.toInt < w.toInt) ∧
      (encodeI64KeyAscending v 0 ≤ encodeI64KeyAscending w k ↔ v.toInt ≤ w.toInt) ∧
      (encodeI64KeyAscending w k < encodeI64KeyAscending v 0 ↔ w.toInt < v.toInt) ∧
      (encodeI64KeyAscending w k ≤ encodeI64KeyAscending v (UInt32.ofNat pointOffsetMax) ↔
        w.toInt ≤ v.toInt)) := by
  refine ⟨fun a b ha hb i j => ⟨f64Key_lt_iff ha hb i j, decodeF64Key_encodeF64Key ha i⟩,
    fun a b i j => ⟨i64Key_lt_iff a b i j, decodeI64Key_encodeI64Key a i⟩,
    fun v w hv hw k => keyBounds (f64Key_lt_iff hv hw) (f64Key_lt_iff hw hv) k,
    fun v w k => keyBounds (i64Key_lt_iff v w) (i64Key_lt_iff w v) k⟩

/-- `-0.0` with offset `7` sorts before `1.0` with offset `3` and comes back as `0.0`. -/
theorem keys_ordered_and_invertible_at_negative_zero :
    (⟨0x8000000000000000⟩ : Binary64).isNaN = false ∧ (⟨0x3FF0000000000000⟩ : Binary64).isNaN = false ∧
    (encodeF64KeyAscending ⟨0x8000000000000000⟩ 7 < encodeF64KeyAscending ⟨0x3FF0000000000000⟩ 3 ↔
        (⟨(⟨0x8000000000000000⟩ : Binary64).value, 7⟩ : Point (WithBot (WithTop ℚ))) <
          ⟨(⟨0x3FF0000000000000⟩ : Binary64).value, 3⟩) ∧
      decodeF64KeyAscending (encodeF64KeyAscending ⟨0x8000000000000000⟩ 7) =
        some (7, if (⟨0x8000000000000000⟩ : Binary64).eq Binary64.zero then Binary64.zero
          else ⟨0x8000000000000000⟩) :=
  ⟨by decide, by decide,
    keys_ordered_and_invertible.1 ⟨0x8000000000000000⟩ ⟨0x3FF0000000000000⟩ (by decide) (by decide) 7 3⟩

end Qdrant
