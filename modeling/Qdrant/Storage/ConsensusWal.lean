/-
# The consensus WAL and the Raft log it stores

`content_manager/consensus/consensus_wal.rs` stores the Raft log in a `Wal`.  Raft indices and
WAL record numbers differ by an offset, read off the first record (`index_offset`): a record
numbered `n` holds the Raft entry of index `n + offset`.  `entry(id)` reads the record
`id - offset`; `append_entries` appends each entry, first truncating the WAL at the entry's
position when the entry CONFLICTS with a stored one, i.e. when its index is below the last
stored Raft index.

The Raft log `L` the WAL stands for (`RaftLog`) takes an entry of index `i` by dropping its
entries of index `i` or more and appending the new one.  While the records hold consecutive
Raft indices, the WAL represents `L` (`Represents`), reads agree with it
(`entry_of_represents`), and appending an entry keeps the representation
(`appendEntry_represents`) — **except for an entry whose index equals the last stored one**.
The conflict test `index < current_index + offset` is strict, so such an entry truncates
nothing: the old entry stays at its index and the new one is stored one position further
(`appendEntry_at_last`), where `entry` reads it under the next index.

The WAL's `clear` drops every record and keeps the first record number; `flush_open_segment`
and the protobuf encoding change nothing the model observes.
-/
import Qdrant.Lib.Wal
import Qdrant.Lib.StateExcept
import Qdrant.Storage.TableOfContent

namespace Qdrant

open StateExcept

/-- `raft::eraftpb::Entry`, for the fields the WAL reads. -/
structure RaftEntry where
  index : ℕ
  term : ℕ
  data : List ℕ
deriving DecidableEq, Repr

/-- `raft::StorageError`, for the two variants `entry` returns. -/
inductive RaftError where
  | compacted
  | unavailable
deriving DecidableEq, Repr

/-- `ConsensusOpWal`. -/
structure ConsensusOpWal where
  wal : Wal RaftEntry

/-- A computation on the consensus WAL that keeps the writes made before an error. -/
abbrev ConsensusM := StateExcept ConsensusOpWal StorageError

namespace ConsensusOpWal

variable (w : ConsensusOpWal)

/-! ## 1. Reads -/

/-- `first_entry`. -/
def firstEntry : Option RaftEntry := w.wal.entry w.wal.firstIndex

/-- `last_entry`. -/
def lastEntry : Option RaftEntry := w.wal.entry w.wal.lastIndex

/-- `index_offset`: the Raft index of the first record less its number. -/
def indexOffset : Option ℕ := w.firstEntry.map fun entry => entry.index - w.wal.firstIndex

/-- `entry`: Raft indices start at 1; an index below the first entry's is compacted; the
record is read at the index less the offset. -/
def entry (id : ℕ) : Except RaftError RaftEntry :=
  if id < 1 then .error .unavailable
  else match w.firstEntry with
    | none => .error .unavailable
    | some firstEntry =>
      if id < firstEntry.index then .error .compacted
      else match w.wal.entry (id - (firstEntry.index - w.wal.firstIndex)) with
        | some e => .ok e
        | none => .error .unavailable

/-- `entries(low, high, None)`: the entries of `low..high`, in order. -/
def entries (low high : ℕ) : Except RaftError (List RaftEntry) :=
  (List.range' low (high - low)).mapM w.entry

/-- `clear`. -/
def clear : ConsensusOpWal := ⟨w.wal.clear⟩

/-! ## 2. Appends -/

/-- The conflict check of `append_entries` for an entry of Raft index `index`: below the last
stored index, the WAL is truncated at the entry's position (an error below the offset); at
or above it, and in an empty WAL, nothing happens. -/
def truncateConflicting (index : ℕ) : Except StorageError ConsensusOpWal :=
  let currentIndex := w.wal.lastIndex
  match w.indexOffset with
  | some offset =>
    if index < currentIndex + offset then
      if index < offset then
        .error (.serviceError ("Wal index conflict, raft index: " ++ toString index ++
          ", wal index: " ++ toString currentIndex ++ ", offset: " ++ toString offset))
      else .ok ⟨w.wal.truncate (index - offset)⟩
    else .ok w
  | none => .ok w

/-- One entry of `append_entries`: the conflict check, then the append. -/
def appendEntry (entry : RaftEntry) : ConsensusM Unit := do
  let w ← liftExcept (truncateConflicting (← get) entry.index)
  set (⟨(w.wal.append entry).2⟩ : ConsensusOpWal)

/-- `append_entries`. -/
def appendEntries (entries : List RaftEntry) : ConsensusM Unit :=
  entries.forM appendEntry

end ConsensusOpWal

/-! ## 3. The Raft log it stands for -/

namespace RaftLog

/-- An entry of index `i` appended: the entries of index `i` or more are replaced by it. -/
def append (L : List RaftEntry) (e : RaftEntry) : List RaftEntry :=
  L.filter (fun x => x.index < e.index) ++ [e]

/-- The entry of index `i`. -/
def entry (L : List RaftEntry) (i : ℕ) : Option RaftEntry := L.find? (·.index = i)

/-- The indices of `L` are `start, start + 1, …`. -/
def Consecutive (L : List RaftEntry) (start : ℕ) : Prop := L.map (·.index) = List.range' start L.length

@[simp] theorem consecutive_nil (start : ℕ) : Consecutive [] start := rfl

theorem consecutive_cons {x : RaftEntry} {rest : List RaftEntry} {start : ℕ} :
    Consecutive (x :: rest) start ↔ x.index = start ∧ Consecutive rest (start + 1) := by
  simp [Consecutive, List.range'_succ]

theorem Consecutive.index_getElem {L : List RaftEntry} {start : ℕ} (h : Consecutive L start)
    {k : ℕ} (hk : k < L.length) : L[k].index = start + k := by
  induction L generalizing start k with
  | nil => simp at hk
  | cons x rest ih =>
    obtain ⟨hx, hrest⟩ := consecutive_cons.mp h
    cases k with
    | zero => simpa using hx
    | succ k =>
      rw [List.getElem_cons_succ, ih hrest (by simpa using hk)]
      omega

theorem consecutive_of_index {L : List RaftEntry} {start : ℕ}
    (h : ∀ k (hk : k < L.length), L[k].index = start + k) : Consecutive L start := by
  apply List.ext_getElem (by simp)
  intro k hk _
  simp only [List.getElem_map, List.getElem_range', Nat.one_mul]
  exact h k (by simpa using hk)

/-- A prefix of a consecutive log, then an entry of the next index, is consecutive. -/
theorem Consecutive.take_append {L : List RaftEntry} {start : ℕ} (h : Consecutive L start) (n : ℕ)
    (hn : n ≤ L.length) (e : RaftEntry) (he : e.index = start + n) :
    Consecutive (L.take n ++ [e]) start := by
  apply consecutive_of_index
  intro k hk
  simp only [List.length_append, List.length_take, List.length_singleton] at hk
  by_cases hkn : k < n
  · rw [List.getElem_append_left (by simp; omega), List.getElem_take]
    exact h.index_getElem (by omega)
  · rw [List.getElem_append_right (by simp; omega)]
    simp only [List.length_take, List.getElem_singleton]
    omega

/-- In a consecutive log, the entries below index `i` are a prefix. -/
theorem Consecutive.filter_lt {L : List RaftEntry} {start : ℕ} (h : Consecutive L start) (i : ℕ) :
    L.filter (fun x => x.index < i) = L.take (i - start) := by
  induction L generalizing start with
  | nil => simp
  | cons x rest ih =>
    obtain ⟨hx, hrest⟩ := consecutive_cons.mp h
    rw [List.filter_cons, ih hrest]
    by_cases hi : start < i
    · rw [if_pos (by simpa [hx] using hi), show i - start = (i - (start + 1)) + 1 by omega,
        List.take_succ_cons]
    · rw [if_neg (by simpa [hx] using hi), show i - start = 0 by omega,
        show i - (start + 1) = 0 by omega, List.take_zero, List.take_zero]

/-- The entry of an index of a consecutive log is at its position. -/
theorem Consecutive.entry {L : List RaftEntry} {start : ℕ} (h : Consecutive L start) {k : ℕ}
    (hk : k < L.length) : RaftLog.entry L (start + k) = some L[k] := by
  induction L generalizing start k with
  | nil => simp at hk
  | cons x rest ih =>
    obtain ⟨hx, hrest⟩ := consecutive_cons.mp h
    unfold RaftLog.entry at ih ⊢
    cases k with
    | zero => exact List.find?_cons_of_pos (by simp [hx])
    | succ k =>
      -- the head has index `start`, below the one looked for
      rw [List.find?_cons_of_neg (by simp [hx]), show start + (k + 1) = start + 1 + k by omega,
        ih hrest (by simpa using hk), List.getElem_cons_succ]

end RaftLog

namespace ConsensusOpWal

/-- The WAL represents the Raft log `L`: its records are `L`, which holds consecutive Raft
indices from `start` on, and `start` is at least the first record number. -/
structure Represents (w : ConsensusOpWal) (L : List RaftEntry) : Prop where
  records_eq : w.wal.records = L
  consecutive : ∃ start, w.wal.firstIndex ≤ start ∧ RaftLog.Consecutive L start

/-- An entry the Raft log can take without tripping the conflict test: any entry for an empty
log (numbered no lower than the WAL), otherwise an index from the first stored one to one past
the last, other than the last. -/
def Admissible (firstIndex : ℕ) (L : List RaftEntry) (e : RaftEntry) : Prop :=
  match L.head?, L.getLast? with
  | some first, some last => first.index ≤ e.index ∧ e.index ≤ last.index + 1 ∧ e.index ≠ last.index
  | _, _ => firstIndex ≤ e.index

instance (firstIndex : ℕ) (L : List RaftEntry) (e : RaftEntry) :
    Decidable (Admissible firstIndex L e) := by
  unfold Admissible
  split <;> infer_instance

section Represents

variable {w : ConsensusOpWal} {L : List RaftEntry}

/-- The first entry of a represented non-empty log is its head, at offset `start - first`. -/
theorem Represents.indexOffset (h : w.Represents L) {start : ℕ}
    (hc : RaftLog.Consecutive L start) (hne : L ≠ []) :
    w.indexOffset = some (start - w.wal.firstIndex) := by
  have hpos : 0 < L.length := List.length_pos_iff.mpr hne
  have hfirst : w.firstEntry = some L[0] := by
    simp [firstEntry, Wal.entry, h.records_eq, List.getElem?_eq_getElem hpos]
  simp [ConsensusOpWal.indexOffset, hfirst, hc.index_getElem hpos]

/-- A represented empty log has no first entry. -/
theorem Represents.indexOffset_nil (h : w.Represents []) : w.indexOffset = none := by
  simp [ConsensusOpWal.indexOffset, firstEntry, Wal.entry, h.records_eq]

/-- A read at `start + k` returns the `k`-th record, where `start` is the first record's Raft
index: `entry` reads the record `start + k - offset`, numbered `k` from the first. -/
theorem entry_eq_getElem {R : List RaftEntry} (hR : w.wal.records = R) {start k : ℕ}
    (hf : w.wal.firstIndex ≤ start) (hstart : 1 ≤ start) (hk : k < R.length)
    (h0 : (R.get ⟨0, by omega⟩).index = start) : w.entry (start + k) = .ok R[k] := by
  have hfirst : w.firstEntry = some (R.get ⟨0, by omega⟩) := by
    simp [firstEntry, Wal.entry, hR, List.getElem?_eq_getElem (show 0 < R.length by omega)]
  have hpos : start + k - (start - w.wal.firstIndex) - w.wal.firstIndex = k := by omega
  simp only [entry, hfirst, h0]
  rw [if_neg (by omega), if_neg (by omega)]
  simp only [Wal.entry, hR]
  rw [if_pos (by omega), hpos, List.getElem?_eq_getElem hk]

/-- **Reads agree with the Raft log**: every index from the first stored one to the last reads
the log's entry of that index. -/
theorem entry_of_represents (h : w.Represents L) {start : ℕ} (hf : w.wal.firstIndex ≤ start)
    (hc : RaftLog.Consecutive L start) (hstart : 1 ≤ start) {k : ℕ} (hk : k < L.length) :
    w.entry (start + k) = .ok L[k] ∧ RaftLog.entry L (start + k) = some L[k] :=
  ⟨entry_eq_getElem h.records_eq hf hstart hk (hc.index_getElem (k := 0) (by omega)),
    hc.entry hk⟩

end Represents

/-! ## 4. Appending one entry -/

section Append

variable {w : ConsensusOpWal} {L : List RaftEntry}

/-- **An admissible entry keeps the representation**: the WAL then stands for the Raft log
with the entry appended. -/
theorem appendEntry_represents (h : w.Represents L) (e : RaftEntry) (he : Admissible w.wal.firstIndex L e) :
    ∃ w', (appendEntry e).run w = (.ok (), w') ∧ w'.Represents (RaftLog.append L e) ∧
      w'.wal.firstIndex = w.wal.firstIndex := by
  obtain ⟨start, hf, hc⟩ := h.consecutive
  rcases L.eq_nil_or_concat with rfl | ⟨init, last, hL⟩
  · -- an empty log: no offset, so the entry is appended as the first record
    have hoff := h.indexOffset_nil
    refine ⟨⟨(w.wal.append e).2⟩, ?_, ?_, rfl⟩
    · simp [appendEntry, truncateConflicting, hoff]
    · refine ⟨by simp [h.records_eq, RaftLog.append], e.index, ?_, ?_⟩
      · simpa [Admissible] using he
      · simp [RaftLog.Consecutive, RaftLog.append]
  · have hne : L ≠ [] := by simp [hL]
    have hpos : 0 < L.length := List.length_pos_iff.mpr hne
    have hoff := h.indexOffset hc hne
    have hlen : L.length = init.length + 1 := by simp [hL]
    have h0 : L[0].index = start := by simpa using hc.index_getElem hpos
    have hlast : last.index = start + init.length := by
      have := hc.index_getElem (k := init.length) (by omega)
      simpa [hL] using this
    have hhead : L.head? = some L[0] := by rw [List.head?_eq_getElem?, List.getElem?_eq_getElem hpos]
    have hgl : L.getLast? = some last := by simp [hL]
    rw [Admissible, hhead, hgl] at he
    obtain ⟨hlo, hhi, hnl⟩ := he
    rw [h0] at hlo
    -- the last stored Raft index is `current_index + offset`
    have hcur : w.wal.lastIndex + (start - w.wal.firstIndex) = start + init.length := by
      simp only [Wal.lastIndex, h.records_eq]
      omega
    by_cases hconf : e.index < start + init.length
    · -- a conflict: the WAL is cut at the entry's position, then the entry appended
      refine ⟨⟨((w.wal.truncate (e.index - (start - w.wal.firstIndex))).append e).2⟩, ?_, ?_, rfl⟩
      · simp only [appendEntry, run_get_bind, run_liftExcept_bind, truncateConflicting, hoff, hcur]
        rw [if_pos hconf, if_neg (by omega)]
        rfl
      · have htake : (w.wal.truncate (e.index - (start - w.wal.firstIndex))).records =
            L.take (e.index - start) := by
          rw [Wal.records_truncate, h.records_eq]
          congr 1
          omega
        refine ⟨?_, start, hf, ?_⟩
        · show (w.wal.truncate _).records ++ [e] = _
          rw [htake, RaftLog.append, hc.filter_lt]
        rw [RaftLog.append, hc.filter_lt]
        exact hc.take_append _ (by omega) e (by omega)
    · -- one past the last entry: nothing to truncate
      have hnext : e.index = start + init.length + 1 := by omega
      refine ⟨⟨(w.wal.append e).2⟩, ?_, ?_, rfl⟩
      · simp only [appendEntry, run_get_bind, run_liftExcept_bind, truncateConflicting, hoff, hcur]
        rw [if_neg hconf]
        rfl
      · have hall : L.filter (fun x => x.index < e.index) = L := by
          rw [hc.filter_lt, List.take_of_length_le (by omega)]
        refine ⟨by simp [h.records_eq, RaftLog.append, hall], start, hf, ?_⟩
        rw [RaftLog.append, hall]
        have := hc.take_append L.length le_rfl e (by omega)
        rwa [List.take_length] at this

/-- **An entry at the last stored index is stored one position further.**  The conflict test
is strict, so nothing is truncated: the entry at that index stays, and the new entry is read
under the next index. -/
theorem appendEntry_at_last (h : w.Represents L) {start : ℕ} (hf : w.wal.firstIndex ≤ start)
    (hc : RaftLog.Consecutive L start) (hstart : 1 ≤ start) (hne : L ≠ []) (e : RaftEntry)
    (he : e.index = start + (L.length - 1)) :
    ∃ w', (appendEntry e).run w = (.ok (), w') ∧ w'.entry e.index = .ok (L.get ⟨L.length - 1, by
      have := List.length_pos_iff.mpr hne; omega⟩) ∧ w'.entry (e.index + 1) = .ok e := by
  have hpos : 0 < L.length := List.length_pos_iff.mpr hne
  have hoff := h.indexOffset hc hne
  have hcur : w.wal.lastIndex + (start - w.wal.firstIndex) = start + (L.length - 1) := by
    simp only [Wal.lastIndex, h.records_eq]
    omega
  refine ⟨⟨(w.wal.append e).2⟩, ?_, ?_⟩
  · simp only [appendEntry, run_get_bind, run_liftExcept_bind, truncateConflicting, hoff, hcur]
    rw [if_neg (by omega)]
    rfl
  · -- the records are now `L ++ [e]`, read from the same first index
    have hR : (⟨(w.wal.append e).2⟩ : ConsensusOpWal).wal.records = L ++ [e] := by
      simp [h.records_eq]
    have h0 : ((L ++ [e]).get ⟨0, by simp⟩).index = start := by
      rw [List.get_eq_getElem, List.getElem_append_left hpos]
      simpa using hc.index_getElem hpos
    constructor
    · rw [he, entry_eq_getElem hR hf hstart (by simp) h0, List.getElem_append_left,
        List.get_eq_getElem]
    · rw [he, show start + (L.length - 1) + 1 = start + L.length by omega,
        entry_eq_getElem hR hf hstart (by simp) h0]
      simp

/-- **A batch of admissible entries keeps the representation**: `append_entries` then stands
for the Raft log with every entry of the batch appended in turn. -/
theorem appendEntries_represents (h : w.Represents L) {es : List RaftEntry}
    (hes : FoldPre (Admissible w.wal.firstIndex) RaftLog.append L es) :
    ∃ w', (appendEntries es).run w = (.ok (), w') ∧ w'.Represents (es.foldl RaftLog.append L) := by
  -- the first record number is carried along, since admissibility is measured against it
  have hstep : ∀ (v : ConsensusOpWal) (M : List RaftEntry) (e : RaftEntry),
      v.Represents M ∧ v.wal.firstIndex = w.wal.firstIndex →
      Admissible w.wal.firstIndex M e →
      ∃ v', (appendEntry e).run v = (.ok (), v') ∧
        v'.Represents (RaftLog.append M e) ∧ v'.wal.firstIndex = w.wal.firstIndex := by
    rintro v M e ⟨hv, hfirst⟩ he
    obtain ⟨v', hrun, hrep, hfirst'⟩ := appendEntry_represents hv e (hfirst ▸ he)
    exact ⟨v', hrun, hrep, hfirst'.trans hfirst⟩
  obtain ⟨w', hrun, hrep, -⟩ := run_forM_simulates hstep es ⟨h, rfl⟩ hes
  exact ⟨w', hrun, hrep⟩

/-- Entries 1, 2, 3, then a rewrite of entry 2 from a fresh WAL. -/
theorem appendEntries_represents_rewrite :
    let w : ConsensusOpWal := ⟨⟨0, []⟩⟩
    let es : List RaftEntry := [⟨1, 1, []⟩, ⟨2, 1, []⟩, ⟨3, 1, []⟩, ⟨2, 2, []⟩]
    w.Represents [] ∧ FoldPre (Admissible w.wal.firstIndex) RaftLog.append [] es ∧
      ∃ w', (appendEntries es).run w = (.ok (), w') ∧
        w'.Represents (es.foldl RaftLog.append []) := by
  intro w es
  have h0 : w.Represents [] := ⟨rfl, 0, le_rfl, rfl⟩
  have hes : FoldPre (Admissible w.wal.firstIndex) RaftLog.append [] es := by decide
  exact ⟨h0, hes, appendEntries_represents h0 hes⟩

end Append

end ConsensusOpWal

/-- **A rewritten last entry is not stored under its index.**  A fresh WAL takes the entries of
index 1 and 2 in term 1; Raft then rewrites index 2 in term 2, an index within the stored
range.  Afterwards `entry(2)` still returns the term-1 entry, and `entry(3)` the new one,
while the Raft log holds the term-2 entry at index 2 and nothing at index 3. -/
theorem append_entries_keeps_stale_last_entry :
    let e1 : RaftEntry := ⟨1, 1, []⟩
    let e2 : RaftEntry := ⟨2, 1, []⟩
    let e2' : RaftEntry := ⟨2, 2, []⟩
    let w : ConsensusOpWal := ⟨⟨0, []⟩⟩
    let w1 := ((ConsensusOpWal.appendEntries [e1, e2]).run w).2
    let w2 := ((ConsensusOpWal.appendEntries [e2']).run w1).2
    let L := RaftLog.append (RaftLog.append (RaftLog.append [] e1) e2) e2'
    w2.entry 2 = .ok e2 ∧ w2.entry 3 = .ok e2' ∧
      RaftLog.entry L 2 = some e2' ∧ RaftLog.entry L 3 = none := by
  intro e1 e2 e2' w w1 w2 L
  decide +kernel

end Qdrant
