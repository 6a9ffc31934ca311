/-
# A write-ahead log of numbered records

A log holds records numbered from its first index on, one after the other.  Appending gives
the new record the next number and returns it; truncating at `k` drops every record numbered
`k` or more; clearing drops all of them.  A record is read by its number.

**What each operation touches** is one lemma each: an append leaves every earlier record
(`entry_append_of_lt`) and puts the new one at the next number (`entry_append_self`); a
truncation keeps exactly the records below its bound (`entry_truncate`).  Nothing here is
specific to one program.
-/
import Mathlib.Data.List.Basic

/-- A log of records numbered from `firstIndex`. -/
structure Wal (α : Type) where
  firstIndex : ℕ
  records : List α

namespace Wal

variable {α : Type} (w : Wal α)

/-- The number of the last record (of the first one's predecessor when empty, floored at 0). -/
def lastIndex : ℕ := w.firstIndex + w.records.length - 1

/-- The record numbered `i`. -/
def entry (i : ℕ) : Option α :=
  if w.firstIndex ≤ i then w.records[i - w.firstIndex]? else none

/-- A record appended; the number it got. -/
def append (a : α) : ℕ × Wal α :=
  (w.firstIndex + w.records.length, { w with records := w.records ++ [a] })

/-- Every record numbered `k` or more dropped. -/
def truncate (k : ℕ) : Wal α := { w with records := w.records.take (k - w.firstIndex) }

/-- Every record dropped. -/
def clear : Wal α := { w with records := [] }

@[simp] theorem firstIndex_append (a : α) : (w.append a).2.firstIndex = w.firstIndex := rfl

@[simp] theorem records_append (a : α) : (w.append a).2.records = w.records ++ [a] := rfl

@[simp] theorem firstIndex_truncate (k : ℕ) : (w.truncate k).firstIndex = w.firstIndex := rfl

@[simp] theorem records_truncate (k : ℕ) :
    (w.truncate k).records = w.records.take (k - w.firstIndex) := rfl

/-- An append leaves every earlier record. -/
theorem entry_append_of_lt (a : α) {i : ℕ} (hi : i < w.firstIndex + w.records.length) :
    (w.append a).2.entry i = w.entry i := by
  unfold entry
  by_cases hf : w.firstIndex ≤ i
  · rw [firstIndex_append, if_pos hf, if_pos hf, records_append,
      List.getElem?_append_left (by omega)]
  · rw [firstIndex_append, if_neg hf, if_neg hf]

/-- The appended record has the number `append` returns. -/
theorem entry_append_self (a : α) : (w.append a).2.entry (w.append a).1 = some a := by
  simp [entry, append]

/-- A truncation at `k` keeps exactly the records below `k`. -/
theorem entry_truncate (k i : ℕ) : (w.truncate k).entry i = if i < k then w.entry i else none := by
  unfold entry
  by_cases hf : w.firstIndex ≤ i
  · simp only [firstIndex_truncate, records_truncate, if_pos hf, List.getElem?_take]
    by_cases hk : i < k
    · rw [if_pos hk, if_pos (by omega)]
    · rw [if_neg hk, if_neg (by omega)]
  · simp [hf]

end Wal
