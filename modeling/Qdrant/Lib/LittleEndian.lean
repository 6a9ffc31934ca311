/-
# Little-endian words in a byte buffer

A fixed-width unsigned integer written least significant byte first, as a little-endian machine
stores it (`to_le_bytes`, `from_le_bytes`), and the two ways a program sees a byte buffer through
a typed slice (`transmute_from_u8`): reading `k`-byte words out of a byte range (`decode`), and
storing a slice of words into one (`encode`, then `writeAt`, which is `copy_from_slice`).

A word below `256 ^ k` is read back as it was written (`decode_encode_of_lt`); a store changes
the range it writes and nothing else (`slice_writeAt_self`, `slice_writeAt_of_disjoint`).  These
are the facts a file layout of several typed sections needs: each section is read back from its
own range whatever the other sections hold.

Nothing here is specific to one program.
-/
import Mathlib

namespace LittleEndian

/-! ## 1. Words as bytes -/

/-- The `k` bytes of `n` modulo `256 ^ k`, least significant first (`to_le_bytes`). -/
def toBytes : ℕ → ℕ → List UInt8
  | 0, _ => []
  | k + 1, n => UInt8.ofNat n :: toBytes k (n / 256)

/-- The number a byte string spells, least significant byte first (`from_le_bytes`). -/
def ofBytes : List UInt8 → ℕ
  | [] => 0
  | b :: bs => b.toNat + 256 * ofBytes bs

@[simp] theorem length_toBytes (k n : ℕ) : (toBytes k n).length = k := by
  induction k generalizing n with
  | zero => rfl
  | succ k ih => simp [toBytes, ih]

/-- **Reading back what was written** gives the number modulo `256 ^ k`. -/
theorem ofBytes_toBytes (k n : ℕ) : ofBytes (toBytes k n) = n % 256 ^ k := by
  induction k generalizing n with
  | zero => simp [toBytes, ofBytes, Nat.mod_one]
  | succ k ih =>
    have h256 : (2 : ℕ) ^ 8 = 256 := rfl
    rw [toBytes, ofBytes, ih, UInt8.toNat_ofNat', h256, pow_succ', Nat.mod_mul]

/-- The bytes of a slice of `k`-byte words (`&[T]` seen as `&[u8]`). -/
def encode (k : ℕ) (ws : List ℕ) : List UInt8 := ws.flatMap (toBytes k)

/-- A byte string seen as a slice of `k`-byte words (`transmute_from_u8`): `data.len() / k`
words, a tail shorter than a word left out. -/
def decode (k : ℕ) (data : List UInt8) : List ℕ :=
  (List.range (data.length / k)).map fun i => ofBytes ((data.drop (i * k)).take k)

@[simp] theorem encode_nil (k : ℕ) : encode k [] = [] := rfl

@[simp] theorem encode_cons (k w : ℕ) (ws : List ℕ) :
    encode k (w :: ws) = toBytes k w ++ encode k ws := rfl

@[simp] theorem length_encode (k : ℕ) (ws : List ℕ) : (encode k ws).length = k * ws.length := by
  induction ws with
  | nil => rfl
  | cons w ws ih =>
    rw [encode_cons, List.length_append, length_toBytes, ih, List.length_cons]
    ring

@[simp] theorem length_decode (k : ℕ) (data : List UInt8) :
    (decode k data).length = data.length / k := by
  simp [decode]

/-- A word's bytes in front of a byte string are read as that word, then the rest. -/
theorem decode_append_of_length {k : ℕ} (hk : 0 < k) {bs : List UInt8} (hbs : bs.length = k)
    (rest : List UInt8) : decode k (bs ++ rest) = ofBytes bs :: decode k rest := by
  have hlen : (bs ++ rest).length / k = rest.length / k + 1 := by
    rw [List.length_append, hbs, Nat.add_comm, Nat.add_div_right _ hk]
  unfold decode
  rw [hlen, List.range_succ_eq_map, List.map_cons, List.map_map]
  congr 1
  · rw [Nat.zero_mul, List.drop_zero, List.take_append_of_le_length hbs.ge, List.take_of_length_le hbs.le]
  · refine List.map_congr_left fun i _ => ?_
    -- the words after the first start `k` bytes further on
    have hdrop : (bs ++ rest).drop ((i + 1) * k) = rest.drop (i * k) := by
      rw [Nat.succ_mul, Nat.add_comm, ← List.drop_drop, List.drop_left' hbs]
    simp only [Function.comp_apply, Nat.succ_eq_add_one, hdrop]

theorem decode_encode {k : ℕ} (hk : 0 < k) (ws : List ℕ) :
    decode k (encode k ws) = ws.map (· % 256 ^ k) := by
  induction ws with
  | nil => simp [decode]
  | cons w ws ih =>
    rw [encode_cons, decode_append_of_length hk (length_toBytes k w), ih, ofBytes_toBytes,
      List.map_cons]

/-- **Words below `256 ^ k` are read back as written.** -/
theorem decode_encode_of_lt {k : ℕ} (hk : 0 < k) {ws : List ℕ} (hws : ∀ w ∈ ws, w < 256 ^ k) :
    decode k (encode k ws) = ws := by
  rw [decode_encode hk]
  exact (List.map_congr_left fun w hw => Nat.mod_eq_of_lt (hws w hw)).trans (List.map_id ws)

/-! ## 2. Slices of a buffer, and stores into it -/

section Buffer

variable {α : Type*}

/-- `&data[start..stop]`. -/
def slice (data : List α) (start stop : ℕ) : List α := (data.take stop).drop start

/-- `dst[start..start + src.len()].copy_from_slice(src)`, one element at a time; an element past
the end of `dst` is not written. -/
def writeAt : List α → ℕ → List α → List α
  | dst, _, [] => dst
  | dst, start, a :: src => writeAt (dst.set start a) (start + 1) src

theorem getElem?_slice (data : List α) (start stop j : ℕ) :
    (slice data start stop)[j]? = if start + j < stop then data[start + j]? else none := by
  rw [slice, List.getElem?_drop, List.getElem?_take]

@[simp] theorem length_slice (data : List α) (start stop : ℕ) :
    (slice data start stop).length = min stop data.length - start := by
  simp [slice]

@[simp] theorem length_writeAt (dst : List α) (start : ℕ) (src : List α) :
    (writeAt dst start src).length = dst.length := by
  induction src generalizing dst start with
  | nil => rfl
  | cons a src ih => rw [writeAt, ih, List.length_set]

/-- A store leaves every element outside its range as it was. -/
theorem getElem?_writeAt_of_not_mem (dst : List α) {start : ℕ} (src : List α) {j : ℕ}
    (hj : j < start ∨ start + src.length ≤ j) : (writeAt dst start src)[j]? = dst[j]? := by
  induction src generalizing dst start with
  | nil => rfl
  | cons a src ih =>
    have hne : start ≠ j := by
      rw [List.length_cons] at hj
      omega
    rw [writeAt, ih (dst.set start a) (by rw [List.length_cons] at hj; omega),
      List.getElem?_set_ne hne]

/-- A store within the buffer puts its elements in its range. -/
theorem getElem?_writeAt_add (dst : List α) {start : ℕ} (src : List α)
    (h : start + src.length ≤ dst.length) {i : ℕ} (hi : i < src.length) :
    (writeAt dst start src)[start + i]? = src[i]? := by
  induction src generalizing dst start i with
  | nil => exact absurd hi (Nat.not_lt_zero i)
  | cons a src ih =>
    rw [List.length_cons] at h hi
    cases i with
    | zero =>
      have hstart : start < start + 1 := Nat.lt_add_one start
      show (writeAt (dst.set start a) (start + 1) src)[start]? = _
      rw [getElem?_writeAt_of_not_mem _ _ (.inl hstart),
        List.getElem?_set_self (by omega), List.getElem?_cons_zero]
    | succ i =>
      have hsrc : start + 1 + src.length ≤ (dst.set start a).length := by
        rw [List.length_set]
        omega
      rw [writeAt, show start + (i + 1) = start + 1 + i by omega, ih _ hsrc (by omega),
        List.getElem?_cons_succ]

/-- **A store is read back from its range.** -/
theorem slice_writeAt_self (dst : List α) (start : ℕ) (src : List α)
    (h : start + src.length ≤ dst.length) :
    slice (writeAt dst start src) start (start + src.length) = src := by
  refine List.ext_getElem? fun j => ?_
  rw [getElem?_slice]
  split_ifs with hj
  · exact getElem?_writeAt_add dst src h (by omega)
  · rw [List.getElem?_eq_none (by omega)]

/-- **A store does not change a range it does not meet.** -/
theorem slice_writeAt_of_disjoint (dst : List α) {start : ℕ} (src : List α) {a b : ℕ}
    (h : b ≤ start ∨ start + src.length ≤ a) :
    slice (writeAt dst start src) a b = slice dst a b := by
  refine List.ext_getElem? fun j => ?_
  rw [getElem?_slice, getElem?_slice]
  split_ifs with hj
  · exact getElem?_writeAt_of_not_mem dst src (by omega)
  · rfl

/-- After a store, the buffer up to its end is what came before it, then what it wrote. -/
theorem take_writeAt_add (dst : List α) (start : ℕ) (src : List α)
    (h : start + src.length ≤ dst.length) :
    (writeAt dst start src).take (start + src.length) = dst.take start ++ src := by
  refine List.ext_getElem? fun j => ?_
  have htake : (dst.take start).length = start := by
    rw [List.length_take]
    omega
  rw [List.getElem?_take, List.getElem?_append, htake]
  split_ifs with hj hstart hstart'
  · rw [getElem?_writeAt_of_not_mem dst src (.inl hstart), List.getElem?_take_of_lt hstart]
  · have hi : j - start < src.length := by omega
    rw [show j = start + (j - start) by omega, getElem?_writeAt_add dst src h hi, Nat.add_sub_cancel_left]
  · omega
  · rw [List.getElem?_eq_none (by omega)]

end Buffer

/-- Words stored into a byte range and read back through a typed slice of the same range. -/
theorem decode_slice_writeAt_encode {k : ℕ} (hk : 0 < k) (dst : List UInt8) (start : ℕ)
    {ws : List ℕ} (hws : ∀ w ∈ ws, w < 256 ^ k) (h : start + k * ws.length ≤ dst.length)
    {stop : ℕ} (hstop : stop = start + k * ws.length) :
    decode k (slice (writeAt dst start (encode k ws)) start stop) = ws := by
  rw [hstop, ← length_encode, slice_writeAt_self _ _ _ (by rwa [length_encode]),
    decode_encode_of_lt hk hws]

end LittleEndian
