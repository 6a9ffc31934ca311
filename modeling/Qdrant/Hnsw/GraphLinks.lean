/-
# The compact file of HNSW links

`index/hnsw_index/graph_links.rs`.  `GraphLinksConverter` lays the links of every point and level
out in one byte buffer: a header of four `u64`, the start of each level among the ranges
(`level_offsets`), the place of each point among the points of a higher level (`reindex`), all
link lists one after another (`links`), and the index where each list ends (`offsets`).  Level
`0` lists every point in id order; a higher level lists only the points that reach it, in the
order of `back_index`, the points sorted by their number of levels, most levels first.
`GraphLinksRam` and `GraphLinksMmap` read the buffer back, and the trait's own methods `links`
and `point_level` find a point's list and its top level from the ranges.

* `graphLinks_round_trip`: for every adjacency structure in which each point has a level,
  serialising it and loading it with either reader gives back exactly the structure: the number
  of points, each point's number of levels, and each of its lists.  It holds for whatever order
  `sort_unstable_by_key` gives points with the same number of levels.

The proof meets in the middle, at the typed layout of the buffer (`fileLinks` and the lists
derived from it).  The writer lays out `fileLinks` and its offsets (`Laid`, carried through the
writing loop); each typed section is read back from its own byte range
(`Lib/LittleEndian.lean`); the readers' methods then find the list of a point and a level in
`fileLinks` because `back_index` is sorted, so that the points of a level are a prefix of it.

The model reads `u32` and `u64` as natural numbers, little endian, and stores them modulo
`2 ^ 32` and `2 ^ 64`; a read out of range, where the source panics, reads `0`, and a write out of
range writes nothing.  The `madvise` call and the file system are left out: a file is its bytes.
-/
import Qdrant.Filter
import Qdrant.Lib.LittleEndian

namespace Qdrant

open LittleEndian

/-! ## 1. The header and the byte ranges of the sections -/

/-- `GraphLinksFileHeader`. -/
structure GraphLinksFileHeader where
  pointCount : ℕ
  levelsCount : ℕ
  totalLinksLen : ℕ
  totalOffsetsLen : ℕ
  deriving DecidableEq, Repr

namespace GraphLinksFileHeader

/-- `raw_size`: four `u64`. -/
def rawSize : ℕ := 8 * 4

/-- `serialize_bytes_to`: the four fields, as `u64`, at the start of the buffer. -/
def serializeBytesTo (h : GraphLinksFileHeader) (rawData : List UInt8) : List UInt8 :=
  writeAt rawData 0 (encode 8 [h.pointCount, h.levelsCount, h.totalLinksLen, h.totalOffsetsLen])

/-- `deserialize_bytes_from`. -/
def deserializeBytesFrom (rawData : List UInt8) : GraphLinksFileHeader :=
  let arr := decode 8 (slice rawData 0 rawSize)
  ⟨arr.getD 0 0, arr.getD 1 0, arr.getD 2 0, arr.getD 3 0⟩

/-- `get_level_offsets_range`, as `(start, end)`: after the header, which keeps room up to
byte `64`. -/
def getLevelOffsetsRange (h : GraphLinksFileHeader) : ℕ × ℕ :=
  let start := max 64 rawSize
  (start, start + h.levelsCount * 8)

/-- `get_reindex_range`. -/
def getReindexRange (h : GraphLinksFileHeader) : ℕ × ℕ :=
  let start := h.getLevelOffsetsRange.2
  (start, start + h.pointCount * 4)

/-- `get_links_range`. -/
def getLinksRange (h : GraphLinksFileHeader) : ℕ × ℕ :=
  let start := h.getReindexRange.2
  (start, start + h.totalLinksLen * 4)

/-- `get_offsets_range`. -/
def getOffsetsRange (h : GraphLinksFileHeader) : ℕ × ℕ :=
  let start := h.getLinksRange.2
  (start, start + h.totalOffsetsLen * 8)

/-- `get_data_size`. -/
def getDataSize (h : GraphLinksFileHeader) : ℕ := h.getOffsetsRange.2

end GraphLinksFileHeader

/-- `reindex_slice`. -/
def reindexSlice (data : List UInt8) (header : GraphLinksFileHeader) : List PointOffsetType :=
  decode 4 (slice data header.getReindexRange.1 header.getReindexRange.2)

/-- `links_slice`. -/
def linksSlice (data : List UInt8) (header : GraphLinksFileHeader) : List PointOffsetType :=
  decode 4 (slice data header.getLinksRange.1 header.getLinksRange.2)

/-- `offsets_slice`. -/
def offsetsSlice (data : List UInt8) (header : GraphLinksFileHeader) : List ℕ :=
  decode 8 (slice data header.getOffsetsRange.1 header.getOffsetsRange.2)

/-- `level_offsets`. -/
def levelOffsets (data : List UInt8) (header : GraphLinksFileHeader) : List ℕ :=
  decode 8 (slice data header.getLevelOffsetsRange.1 header.getLevelOffsetsRange.2)

/-! ## 2. Writing: `GraphLinksConverter` -/

/-- What `sort_unstable_by_key` promises: a permutation of its input in which the keys do not
decrease.  Which of several items with one key comes first is not promised. -/
structure SortsByKey {α : Type} (sortUnstableByKey : (α → ℕ) → List α → List α) : Prop where
  perm : ∀ key xs, (sortUnstableByKey key xs).Perm xs
  sorted : ∀ key xs, (sortUnstableByKey key xs).Pairwise fun a b => key a ≤ key b

/-- `GraphLinksConverter`, without the `path` it is saved under. -/
structure GraphLinksConverter where
  edges : List (List (List PointOffsetType))
  reindex : List PointOffsetType
  backIndex : List ℕ
  totalLinksLen : ℕ
  totalOffsetsLen : ℕ

namespace GraphLinksConverter

/-- `GraphLinksConverter::new`, with the library's `sort_unstable_by_key` as a parameter. -/
def new (sortUnstableByKey : (ℕ → ℕ) → List ℕ → List ℕ)
    (edges : List (List (List PointOffsetType))) : GraphLinksConverter :=
  if edges.isEmpty then ⟨edges, [], [], 0, 1⟩
  else
    -- the points by their number of levels, most levels first
    let backIndex :=
      (sortUnstableByKey (fun i => (edges.getD i []).length) (List.range edges.length)).reverse
    -- `reindex[back_index[i]] = i as PointOffsetType`
    let reindex := (List.range backIndex.length).foldl
      (fun reindex i => reindex.set (backIndex.getD i 0) (i % 2 ^ 32))
      (List.replicate backIndex.length 0)
    let totals := edges.foldl (fun totals point => point.foldl
      (fun totals layer => (totals.1 + layer.length, totals.2 + 1)) totals) (0, 1)
    ⟨edges, reindex, backIndex, totals.1, totals.2⟩

/-- `get_levels_count`: the levels of the first point of `back_index`. -/
def getLevelsCount (c : GraphLinksConverter) : ℕ :=
  if c.backIndex.isEmpty then 0 else (c.edges.getD (c.backIndex.getD 0 0) []).length

/-- `get_header`. -/
def getHeader (c : GraphLinksConverter) : GraphLinksFileHeader :=
  ⟨c.reindex.length, c.getLevelsCount, c.totalLinksLen, c.totalOffsetsLen⟩

/-- `data_size`. -/
def dataSize (c : GraphLinksConverter) : ℕ := c.getHeader.getDataSize

/-- `iterate_level_points`: the points the callback is given on a level, with their lists.
Level `0` gives every point; a higher level walks `back_index` until a point without the level. -/
def iterateLevelPoints (c : GraphLinksConverter) (level : ℕ) :
    List (ℕ × List PointOffsetType) :=
  if level = 0 then
    (List.range c.edges.length).map fun pointId => (pointId, (c.edges.getD pointId []).getD 0 [])
  else
    ((c.backIndex.take c.edges.length).takeWhile
        fun pointId => level < (c.edges.getD pointId []).length).map
      fun pointId => (pointId, (c.edges.getD pointId []).getD level [])

/-- The state of the writing loop of `serialize_to`: the two typed views it writes through, the
next place in each, and the level offsets pushed so far. -/
structure SerializeState where
  linksMmap : List PointOffsetType
  offsetsMmap : List ℕ
  linksPos : ℕ
  offsetsPos : ℕ
  levelOffsets : List ℕ

/-- The callback of `serialize_to`: a point's links, then the offset where they end. -/
def SerializeState.push (s : SerializeState) (links : List PointOffsetType) : SerializeState :=
  { s with
    linksMmap := writeAt s.linksMmap s.linksPos links
    linksPos := s.linksPos + links.length
    offsetsMmap := s.offsetsMmap.set s.offsetsPos (s.linksPos + links.length)
    offsetsPos := s.offsetsPos + 1 }

/-- One level of the writing loop: the index its ranges start at, then its points. -/
def serializeLevel (c : GraphLinksConverter) (s : SerializeState) (level : ℕ) : SerializeState :=
  (c.iterateLevelPoints level).foldl (fun s point => s.push point.2)
    { s with levelOffsets := s.levelOffsets ++ [s.offsetsPos - 1] }

/-- `serialize_to`.  The links and offsets are written through typed views of their byte ranges:
the view is read, written, and stored back. -/
def serializeTo (c : GraphLinksConverter) (bytesData : List UInt8) : List UInt8 :=
  let header := c.getHeader
  let bytesData := header.serializeBytesTo bytesData
  let bytesData := writeAt bytesData header.getReindexRange.1 (encode 4 c.reindex)
  let linksMmap := decode 4 (slice bytesData header.getLinksRange.1 header.getLinksRange.2)
  let offsetsMmap :=
    (decode 8 (slice bytesData header.getOffsetsRange.1 header.getOffsetsRange.2)).set 0 0
  let s := (List.range header.levelsCount).foldl c.serializeLevel ⟨linksMmap, offsetsMmap, 0, 1, []⟩
  let bytesData := writeAt bytesData header.getLinksRange.1 (encode 4 s.linksMmap)
  let bytesData := writeAt bytesData header.getOffsetsRange.1 (encode 8 s.offsetsMmap)
  writeAt bytesData header.getLevelOffsetsRange.1 (encode 8 s.levelOffsets)

/-- `to_bytes`. -/
def toBytes (c : GraphLinksConverter) : List UInt8 :=
  c.serializeTo (List.replicate c.dataSize 0)

end GraphLinksConverter

/-! ## 3. Reading: the trait `GraphLinks` and its two implementations -/

/-- The methods an implementation of the trait `GraphLinks` gives; ranges are `(start, end)`. -/
structure GraphLinks where
  offsetsLen : ℕ
  levelsCount : ℕ
  getLinks : ℕ × ℕ → List PointOffsetType
  getLinksRange : ℕ → ℕ × ℕ
  getLevelOffset : ℕ → ℕ
  reindex : PointOffsetType → PointOffsetType
  numPoints : ℕ

namespace GraphLinks

/-- `links`: level `0` by point id, a higher level by the point's place in `reindex`. -/
def links (g : GraphLinks) (pointId : PointOffsetType) (level : ℕ) : List PointOffsetType :=
  if level = 0 then g.getLinks (g.getLinksRange pointId)
  else
    let reindexedPointId := g.reindex pointId
    let layerOffsetsStart := g.getLevelOffset level
    g.getLinks (g.getLinksRange (layerOffsetsStart + reindexedPointId))

/-- `get_level_offsets_range`: the indices of a level's ranges; the last level ends with the
offsets. -/
def getLevelOffsetsRange (g : GraphLinks) (level : ℕ) : Option (ℕ × ℕ) :=
  if level < g.levelsCount then
    let layerOffsetsStart := g.getLevelOffset level
    let layerOffsetsEnd :=
      if level + 1 < g.levelsCount then g.getLevelOffset (level + 1) else g.offsetsLen - 1
    some (layerOffsetsStart, layerOffsetsEnd)
  else none

/-- The loop of `point_level` from `level` on: the level before the first one the point is not
in. -/
def pointLevelFrom (g : GraphLinks) (reindexedPointId level : ℕ) : ℕ :=
  match h : g.getLevelOffsetsRange level with
  | some offsetsRange =>
    if offsetsRange.2 ≤ offsetsRange.1 + reindexedPointId then level - 1
    else g.pointLevelFrom reindexedPointId (level + 1)
  | none => level - 1
termination_by g.levelsCount - level
decreasing_by
  have hlevel : level < g.levelsCount := by
    by_contra hlt
    unfold getLevelOffsetsRange at h
    rw [if_neg hlt] at h
    cases h
  omega

/-- `point_level`: level `0` is always there, so the loop starts at `1`. -/
def pointLevel (g : GraphLinks) (pointId : PointOffsetType) : ℕ :=
  g.pointLevelFrom (g.reindex pointId) 1

/-- `to_vec` of the tests: every point's lists on each of its levels. -/
def toVec (g : GraphLinks) : List (List (List PointOffsetType)) :=
  (List.range g.numPoints).map fun i =>
    (List.range (g.pointLevel i + 1)).map fun level => g.links i level

/-- A reader gives back `edges`: the number of points, each point's number of levels, and each
of its lists. -/
structure Represents (g : GraphLinks) (edges : List (List (List PointOffsetType))) : Prop where
  numPoints : g.numPoints = edges.length
  pointLevel : ∀ p < edges.length, g.pointLevel p + 1 = (edges.getD p []).length
  links : ∀ p < edges.length, ∀ level < (edges.getD p []).length,
    g.links p level = (edges.getD p []).getD level []

end GraphLinks

/-- `GraphLinksRam`: the sections copied out of the buffer. -/
structure GraphLinksRam where
  links : List PointOffsetType
  offsets : List ℕ
  levelOffsets : List ℕ
  reindex : List PointOffsetType

namespace GraphLinksRam

/-- `load_from_memory`. -/
def loadFromMemory (data : List UInt8) : GraphLinksRam :=
  let header := GraphLinksFileHeader.deserializeBytesFrom data
  ⟨linksSlice data header, offsetsSlice data header, Qdrant.levelOffsets data header,
    reindexSlice data header⟩

/-- `from_converter`: the converter's bytes, loaded. -/
def fromConverter (converter : GraphLinksConverter) : GraphLinksRam :=
  loadFromMemory (converter.serializeTo (List.replicate converter.dataSize 0))

/-- `impl GraphLinks for GraphLinksRam`. -/
def toGraphLinks (g : GraphLinksRam) : GraphLinks where
  offsetsLen := g.offsets.length
  levelsCount := g.levelOffsets.length
  getLinks range := slice g.links range.1 range.2
  getLinksRange idx := (g.offsets.getD idx 0, g.offsets.getD (idx + 1) 0)
  getLevelOffset level := g.levelOffsets.getD level 0
  reindex pointId := g.reindex.getD pointId 0
  numPoints := g.reindex.length

end GraphLinksRam

/-- `GraphLinksMmap`: the file's bytes, read where needed. -/
structure GraphLinksMmap where
  mmap : Option (List UInt8)
  header : GraphLinksFileHeader
  levelOffsets : List ℕ

namespace GraphLinksMmap

/-- `load_from_file`, of a file's bytes. -/
def loadFromFile (mmap : List UInt8) : GraphLinksMmap :=
  let header := GraphLinksFileHeader.deserializeBytesFrom mmap
  ⟨some mmap, header, Qdrant.levelOffsets mmap header⟩

/-- `get_reindex_slice`; without a file the source panics. -/
def getReindexSlice (g : GraphLinksMmap) : List PointOffsetType :=
  match g.mmap with
  | some mmap => reindexSlice mmap g.header
  | none => []

/-- `get_links_slice`. -/
def getLinksSlice (g : GraphLinksMmap) : List PointOffsetType :=
  match g.mmap with
  | some mmap => linksSlice mmap g.header
  | none => []

/-- `get_offsets_slice`. -/
def getOffsetsSlice (g : GraphLinksMmap) : List ℕ :=
  match g.mmap with
  | some mmap => offsetsSlice mmap g.header
  | none => []

/-- `impl GraphLinks for GraphLinksMmap`. -/
def toGraphLinks (g : GraphLinksMmap) : GraphLinks where
  offsetsLen := (g.header.getOffsetsRange.2 - g.header.getOffsetsRange.1) / 8
  levelsCount := g.levelOffsets.length
  getLinks range := slice g.getLinksSlice range.1 range.2
  getLinksRange idx := (g.getOffsetsSlice.getD idx 0, g.getOffsetsSlice.getD (idx + 1) 0)
  getLevelOffset level := g.levelOffsets.getD level 0
  reindex pointId := g.getReindexSlice.getD pointId 0
  numPoints := g.header.pointCount

end GraphLinksMmap

/-! ## 4. What `new` builds -/

/-- Writing `f i` at `bs[i]` for every `i < m`: when no place is written twice, each place keeps
the value written there. -/
theorem getD_foldl_set {bs : List ℕ} (hnodup : bs.Nodup) (f : ℕ → ℕ) {init : List ℕ}
    (hlt : ∀ b ∈ bs, b < init.length) :
    ∀ m ≤ bs.length, ∀ i < m,
      ((List.range m).foldl (fun r j => r.set (bs.getD j 0) (f j)) init).getD (bs.getD i 0) 0 = f i
  | 0, _, i, hi => absurd hi (Nat.not_lt_zero i)
  | m + 1, hm, i, hi => by
    have hlen : ∀ k, ((List.range k).foldl (fun r j => r.set (bs.getD j 0) (f j)) init).length =
        init.length := by
      intro k
      induction k with
      | zero => rfl
      | succ k ih => rw [List.range_succ, List.foldl_append, List.foldl_cons, List.foldl_nil,
          List.length_set, ih]
    rw [List.range_succ, List.foldl_append, List.foldl_cons, List.foldl_nil]
    by_cases him : i = m
    · -- the last write is the one read
      have hplace : bs.getD m 0 < init.length := by
        rw [List.getD_eq_getElem _ _ (by omega)]
        exact hlt _ (List.getElem_mem _)
      rw [him, List.getD_eq_getElem?_getD, List.getElem?_set_self (by rw [hlen]; exact hplace),
        Option.getD_some]
    · -- the last write is to another place, as `bs` has no repeats
      have hne : bs.getD m 0 ≠ bs.getD i 0 := by
        rw [List.getD_eq_getElem _ _ (by omega), List.getD_eq_getElem _ _ (by omega)]
        exact fun h => him (hnodup.getElem_inj_iff.mp h).symm
      rw [List.getD_eq_getElem?_getD, List.getElem?_set_ne hne, ← List.getD_eq_getElem?_getD]
      exact getD_foldl_set hnodup f hlt m (by omega) i (by omega)

theorem foldl_layerTotals (point : List (List PointOffsetType)) (totals : ℕ × ℕ) :
    point.foldl (fun totals layer => (totals.1 + layer.length, totals.2 + 1)) totals =
      (totals.1 + (point.map List.length).sum, totals.2 + point.length) := by
  induction point generalizing totals with
  | nil => simp
  | cons layer point ih =>
    rw [List.foldl_cons, ih, List.map_cons, List.sum_cons, List.length_cons]
    ext <;> dsimp only <;> omega

theorem foldl_pointTotals (edges : List (List (List PointOffsetType))) (totals : ℕ × ℕ) :
    edges.foldl (fun totals point => point.foldl
        (fun totals layer => (totals.1 + layer.length, totals.2 + 1)) totals) totals =
      (totals.1 + (edges.map fun point => (point.map List.length).sum).sum,
        totals.2 + (edges.map List.length).sum) := by
  induction edges generalizing totals with
  | nil => simp
  | cons point edges ih =>
    rw [List.foldl_cons, foldl_layerTotals, ih, List.map_cons, List.sum_cons, List.map_cons,
      List.sum_cons]
    ext <;> dsimp only <;> omega

namespace GraphLinksConverter

@[simp] theorem edges_new (sortUnstableByKey : (ℕ → ℕ) → List ℕ → List ℕ)
    (edges : List (List (List PointOffsetType))) : (new sortUnstableByKey edges).edges = edges := by
  unfold new
  split_ifs <;> rfl

/-- The totals of `new`: every link, and one range per point and level after a first offset. -/
theorem totals_new (sortUnstableByKey : (ℕ → ℕ) → List ℕ → List ℕ)
    (edges : List (List (List PointOffsetType))) :
    (new sortUnstableByKey edges).totalLinksLen =
        (edges.map fun point => (point.map List.length).sum).sum ∧
      (new sortUnstableByKey edges).totalOffsetsLen = (edges.map List.length).sum + 1 := by
  unfold new
  split_ifs with hempty
  · rw [List.isEmpty_iff.mp hempty]
    exact ⟨rfl, rfl⟩
  · dsimp only
    rw [foldl_pointTotals]
    exact ⟨Nat.zero_add _, Nat.add_comm _ _⟩

section New

variable {sortUnstableByKey : (ℕ → ℕ) → List ℕ → List ℕ} (hsort : SortsByKey sortUnstableByKey)
  (edges : List (List (List PointOffsetType)))
include hsort

theorem backIndex_new : (new sortUnstableByKey edges).backIndex =
    (sortUnstableByKey (fun i => (edges.getD i []).length) (List.range edges.length)).reverse := by
  unfold new
  split_ifs with hempty
  · -- no points: the sort of nothing is nothing
    rw [List.isEmpty_iff.mp hempty, List.length_nil, List.range_zero, (hsort.perm _ []).eq_nil,
      List.reverse_nil]
  · rfl

theorem perm_backIndex_new :
    (new sortUnstableByKey edges).backIndex.Perm (List.range edges.length) := by
  rw [backIndex_new hsort]
  exact (List.reverse_perm _).trans (hsort.perm _ _)

/-- `back_index` has the points with most levels first. -/
theorem pairwise_backIndex_new : (new sortUnstableByKey edges).backIndex.Pairwise
    fun a b => (edges.getD b []).length ≤ (edges.getD a []).length := by
  rw [backIndex_new hsort, List.pairwise_reverse]
  exact hsort.sorted _ _

theorem length_backIndex_new : (new sortUnstableByKey edges).backIndex.length = edges.length :=
  (perm_backIndex_new hsort edges).length_eq.trans List.length_range

theorem reindex_new : (new sortUnstableByKey edges).reindex =
    (List.range edges.length).foldl
      (fun reindex i => reindex.set ((new sortUnstableByKey edges).backIndex.getD i 0) (i % 2 ^ 32))
      (List.replicate edges.length 0) := by
  have hlen := length_backIndex_new hsort edges
  by_cases hempty : edges.isEmpty
  · rw [List.isEmpty_iff.mp hempty]
    rfl
  · rw [new, if_neg hempty] at hlen ⊢
    dsimp only at hlen ⊢
    rw [hlen]

theorem length_reindex_new : (new sortUnstableByKey edges).reindex.length = edges.length := by
  rw [reindex_new hsort]
  have hlen : ∀ k, ((List.range k).foldl (fun reindex i =>
      reindex.set ((new sortUnstableByKey edges).backIndex.getD i 0) (i % 2 ^ 32))
        (List.replicate edges.length 0)).length = edges.length := by
    intro k
    induction k with
    | zero => exact List.length_replicate
    | succ k ih => rw [List.range_succ, List.foldl_append, List.foldl_cons, List.foldl_nil,
        List.length_set, ih]
  exact hlen _

/-- **`reindex` inverts `back_index`**, while the places fit a `u32`. -/
theorem reindex_getD_backIndex (hpoints : edges.length ≤ 2 ^ 32) {i : ℕ} (hi : i < edges.length) :
    (new sortUnstableByKey edges).reindex.getD ((new sortUnstableByKey edges).backIndex.getD i 0) 0
      = i := by
  have hperm := perm_backIndex_new hsort edges
  have hlen := length_backIndex_new hsort edges
  rw [reindex_new hsort]
  refine (getD_foldl_set (hperm.nodup_iff.mpr List.nodup_range) (· % 2 ^ 32) (fun b hb => ?_)
    edges.length hlen.ge i hi).trans (Nat.mod_eq_of_lt (by omega))
  rw [List.length_replicate, ← List.mem_range]
  exact hperm.subset hb

/-- `get_levels_count` is the largest number of levels of a point. -/
theorem length_le_getLevelsCount {p : ℕ} (hp : p < edges.length) :
    (edges.getD p []).length ≤ (new sortUnstableByKey edges).getLevelsCount := by
  have hmem : p ∈ (new sortUnstableByKey edges).backIndex :=
    (perm_backIndex_new hsort edges).mem_iff.mpr (List.mem_range.mpr hp)
  have hsorted := pairwise_backIndex_new hsort edges
  unfold getLevelsCount
  rw [edges_new]
  generalize (new sortUnstableByKey edges).backIndex = bs at hmem hsorted ⊢
  cases bs with
  | nil => exact absurd hmem List.not_mem_nil
  | cons b bs =>
    rw [List.isEmpty_cons, if_neg Bool.false_ne_true, List.getD_cons_zero]
    rcases List.mem_cons.mp hmem with rfl | hmem
    · exact le_refl (edges.getD p []).length
    · exact List.rel_of_pairwise_cons hsorted hmem

end New

end GraphLinksConverter

/-! ## 5. The layout: the link lists in the order of the file -/

section Sorted

variable {α : Type} {key : α → ℕ}

/-- In a list whose keys do not increase, the items with a key over a bound come first. -/
theorem takeWhile_eq_filter_of_pairwise {xs : List α} (hxs : xs.Pairwise fun a b => key b ≤ key a)
    (l : ℕ) : xs.takeWhile (fun a => l < key a) = xs.filter (fun a => l < key a) := by
  induction xs with
  | nil => rfl
  | cons x xs ih =>
    rw [List.pairwise_cons] at hxs
    by_cases hx : l < key x
    · rw [List.takeWhile_cons_of_pos (by simpa using hx), List.filter_cons_of_pos (by simpa using hx),
        ih hxs.2]
    · -- nothing after an item at or under the bound is over it
      have hrest : ∀ y ∈ xs, ¬decide (l < key y) = true := by
        intro y hy
        have hle := hxs.1 y hy
        simp only [decide_eq_true_eq]
        omega
      rw [List.takeWhile_cons_of_neg (by simpa using hx), List.filter_cons_of_neg (by simpa using hx),
        List.filter_eq_nil_iff.mpr hrest]

/-- In a list whose keys do not increase, an item is among the first ones over a bound exactly
when its own key is over it. -/
theorem lt_length_takeWhile_iff {xs : List α} (hxs : xs.Pairwise fun a b => key b ≤ key a) (l : ℕ)
    {i : ℕ} (hi : i < xs.length) : i < (xs.takeWhile fun a => l < key a).length ↔ l < key xs[i] := by
  induction xs generalizing i with
  | nil => exact absurd hi (Nat.not_lt_zero i)
  | cons x xs ih =>
    rw [List.pairwise_cons] at hxs
    by_cases hx : l < key x
    · rw [List.takeWhile_cons_of_pos (by simpa using hx), List.length_cons]
      cases i with
      | zero => simpa using hx
      | succ i =>
        rw [List.getElem_cons_succ, ← ih hxs.2 (by simpa using hi)]
        omega
    · rw [List.takeWhile_cons_of_neg (by simpa using hx), List.length_nil]
      cases i with
      | zero => simpa using hx
      | succ i =>
        have hi' : i < xs.length := by simpa using hi
        have hle := hxs.1 xs[i] (List.getElem_mem hi')
        rw [List.getElem_cons_succ]
        omega

end Sorted

theorem sum_map_eq_sum_range_getD {β : Type} (xs : List β) (d : β) (g : β → ℕ) :
    (xs.map g).sum = ∑ i ∈ Finset.range xs.length, g (xs.getD i d) := by
  induction xs with
  | nil => simp
  | cons x xs ih =>
    rw [List.map_cons, List.sum_cons, ih, List.length_cons, Finset.sum_range_succ',
      List.getD_cons_zero, Nat.add_comm]
    simp only [List.getD_cons_succ]

theorem sum_map_flatMap_range {β : Type} (f : ℕ → List β) (g : β → ℕ) (m : ℕ) :
    (((List.range m).flatMap f).map g).sum = ∑ l ∈ Finset.range m, ((f l).map g).sum := by
  induction m with
  | zero => simp
  | succ m ih =>
    rw [List.range_succ, List.flatMap_append, List.flatMap_singleton, List.map_append,
      List.sum_append, ih, Finset.sum_range_succ]

theorem sum_map_filter_range (P : ℕ → Prop) [DecidablePred P] (h : ℕ → ℕ) (n : ℕ) :
    (((List.range n).filter fun p => decide (P p)).map h).sum = ∑ p ∈ Finset.range n with P p, h p := by
  rw [Finset.sum_eq_multiset_sum]
  rfl

namespace GraphLinksConverter

/-- The link lists of a level, in the order `serialize_to` writes them. -/
def levelLinks (c : GraphLinksConverter) (level : ℕ) : List (List PointOffsetType) :=
  (c.iterateLevelPoints level).map Prod.snd

/-- Every link list, in the order of the file. -/
def fileLinks (c : GraphLinksConverter) : List (List PointOffsetType) :=
  (List.range c.getLevelsCount).flatMap c.levelLinks

/-- The index of a level's first range among all ranges. -/
def levelStart (c : GraphLinksConverter) (level : ℕ) : ℕ :=
  ((List.range level).flatMap c.levelLinks).length

theorem levelStart_succ (c : GraphLinksConverter) (level : ℕ) :
    c.levelStart (level + 1) = c.levelStart level + (c.levelLinks level).length := by
  rw [levelStart, levelStart, List.range_succ, List.flatMap_append, List.flatMap_singleton,
    List.length_append]

theorem levelLinks_zero (c : GraphLinksConverter) :
    c.levelLinks 0 = (List.range c.edges.length).map fun p => (c.edges.getD p []).getD 0 [] := by
  rw [levelLinks, iterateLevelPoints, if_pos rfl, List.map_map]
  rfl

theorem levelLinks_succ (c : GraphLinksConverter) (level : ℕ) :
    c.levelLinks (level + 1) = ((c.backIndex.take c.edges.length).takeWhile
      fun p => level + 1 < (c.edges.getD p []).length).map
        fun p => (c.edges.getD p []).getD (level + 1) [] := by
  rw [levelLinks, iterateLevelPoints, if_neg (Nat.succ_ne_zero level), List.map_map]
  rfl

/-- The lists of the levels before `level`, then those of `level`, then the rest. -/
theorem fileLinks_eq_append (c : GraphLinksConverter) {level : ℕ} (h : level < c.getLevelsCount) :
    ∃ rest, c.fileLinks = (List.range level).flatMap c.levelLinks ++ (c.levelLinks level ++ rest) := by
  obtain ⟨k, hk⟩ : ∃ k, c.getLevelsCount = level + 1 + k := ⟨c.getLevelsCount - (level + 1), by omega⟩
  refine ⟨(List.map (fun x => level + 1 + x) (List.range k)).flatMap c.levelLinks, ?_⟩
  rw [fileLinks, hk, List.range_add, List.flatMap_append, List.range_succ, List.flatMap_append,
    List.flatMap_singleton, List.append_assoc]

section New

variable {sortUnstableByKey : (ℕ → ℕ) → List ℕ → List ℕ} (hsort : SortsByKey sortUnstableByKey)
  (edges : List (List (List PointOffsetType)))
include hsort

/-- On a level above `0`, the `i`-th point of `back_index` has a list exactly when it has the
level. -/
theorem lt_length_levelLinks_succ_iff (level : ℕ) {i : ℕ} (hi : i < edges.length) :
    i < ((new sortUnstableByKey edges).levelLinks (level + 1)).length ↔
      level + 1 < (edges.getD ((new sortUnstableByKey edges).backIndex.getD i 0) []).length := by
  have hlen := length_backIndex_new hsort edges
  rw [List.getD_eq_getElem (l := (new sortUnstableByKey edges).backIndex) _ (by omega),
    levelLinks_succ, List.length_map, edges_new, List.take_of_length_le hlen.le,
    lt_length_takeWhile_iff (pairwise_backIndex_new hsort edges) _ (by omega)]

/-- ... and that list is its list on the level. -/
theorem getElem?_levelLinks_succ (level : ℕ) {i : ℕ}
    (hi : i < ((new sortUnstableByKey edges).levelLinks (level + 1)).length) :
    ((new sortUnstableByKey edges).levelLinks (level + 1))[i]? =
      some ((edges.getD ((new sortUnstableByKey edges).backIndex.getD i 0) []).getD (level + 1) []) := by
  have hlen := length_backIndex_new hsort edges
  rw [levelLinks_succ, List.length_map, edges_new, List.take_of_length_le hlen.le] at *
  have hprefix := List.takeWhile_prefix (l := (new sortUnstableByKey edges).backIndex)
    fun p => decide (level + 1 < (edges.getD p []).length)
  have hib : i < (new sortUnstableByKey edges).backIndex.length := hprefix.length_le.trans_lt' hi
  rw [List.getElem?_map, List.getElem?_eq_getElem hi, hprefix.getElem hi,
    List.getD_eq_getElem _ _ hib]
  rfl

/-- **A level's lists, summed**: over the points that have the level, in id order. -/
theorem sum_map_levelLinks (hlevels : ∀ point ∈ edges, point ≠ []) (g : List PointOffsetType → ℕ)
    (level : ℕ) : (((new sortUnstableByKey edges).levelLinks level).map g).sum =
      ∑ p ∈ Finset.range edges.length with level < (edges.getD p []).length,
        g ((edges.getD p []).getD level []) := by
  cases level with
  | zero =>
    -- level `0` lists every point, and every point has it
    have hall : ∀ p ∈ Finset.range edges.length, 0 < (edges.getD p []).length := by
      intro p hp
      rw [Finset.mem_range] at hp
      rw [List.getD_eq_getElem _ _ hp, List.length_pos_iff]
      exact hlevels _ (List.getElem_mem hp)
    rw [Finset.filter_true_of_mem hall, levelLinks_zero, edges_new, List.map_map,
      Finset.sum_eq_multiset_sum]
    rfl
  | succ level =>
    -- the first points of `back_index` are those with the level
    have hlen := length_backIndex_new hsort edges
    rw [levelLinks_succ, edges_new, List.take_of_length_le hlen.le,
      takeWhile_eq_filter_of_pairwise (pairwise_backIndex_new hsort edges), List.map_map,
      (((perm_backIndex_new hsort edges).filter _).map _).sum_eq, sum_map_filter_range]
    rfl

/-- **The file's lists, summed, are the points' lists, summed** (each point's lists lie on its
levels, all below `get_levels_count`). -/
theorem sum_map_fileLinks (hlevels : ∀ point ∈ edges, point ≠ []) (g : List PointOffsetType → ℕ) :
    (((new sortUnstableByKey edges).fileLinks).map g).sum =
      (edges.map fun point => (point.map g).sum).sum := by
  have hfits : ∀ p ∈ Finset.range edges.length, (Finset.range (new sortUnstableByKey edges).getLevelsCount).filter
      (fun l => l < (edges.getD p []).length) = Finset.range (edges.getD p []).length := by
    intro p hp
    have hle := length_le_getLevelsCount hsort edges (Finset.mem_range.mp hp)
    ext l
    simp only [Finset.mem_filter, Finset.mem_range]
    omega
  calc (((new sortUnstableByKey edges).fileLinks).map g).sum
      = ∑ l ∈ Finset.range (new sortUnstableByKey edges).getLevelsCount,
          ∑ p ∈ Finset.range edges.length with l < (edges.getD p []).length,
            g ((edges.getD p []).getD l []) := by
        rw [fileLinks, sum_map_flatMap_range]
        exact Finset.sum_congr rfl fun l _ => sum_map_levelLinks hsort edges hlevels g l
    _ = ∑ p ∈ Finset.range edges.length,
          ∑ l ∈ Finset.range (new sortUnstableByKey edges).getLevelsCount with
            l < (edges.getD p []).length, g ((edges.getD p []).getD l []) := by
        simp only [Finset.sum_filter]
        exact Finset.sum_comm
    _ = ∑ p ∈ Finset.range edges.length, ((edges.getD p []).map g).sum := by
        refine Finset.sum_congr rfl fun p hp => ?_
        rw [hfits p hp, sum_map_eq_sum_range_getD _ [] g]
    _ = (edges.map fun point => (point.map g).sum).sum :=
        (sum_map_eq_sum_range_getD edges [] fun point => (point.map g).sum).symm

theorem length_fileLinks (hlevels : ∀ point ∈ edges, point ≠ []) :
    (new sortUnstableByKey edges).fileLinks.length + 1 =
      (new sortUnstableByKey edges).totalOffsetsLen := by
  have hsum := sum_map_fileLinks hsort edges hlevels fun _ => 1
  simp only [List.map_const', List.sum_replicate, smul_eq_mul, Nat.mul_one] at hsum
  rw [hsum, (totals_new sortUnstableByKey edges).2]

theorem length_flatten_fileLinks (hlevels : ∀ point ∈ edges, point ≠ []) :
    (new sortUnstableByKey edges).fileLinks.flatten.length =
      (new sortUnstableByKey edges).totalLinksLen := by
  rw [List.length_flatten, sum_map_fileLinks hsort edges hlevels, (totals_new sortUnstableByKey edges).1]

end New

end GraphLinksConverter

/-! ## 6. The writing loop lays the lists out -/

namespace GraphLinksConverter

@[simp] theorem push_linksMmap (s : SerializeState) (links : List PointOffsetType) :
    (s.push links).linksMmap = writeAt s.linksMmap s.linksPos links := rfl

@[simp] theorem push_offsetsMmap (s : SerializeState) (links : List PointOffsetType) :
    (s.push links).offsetsMmap = s.offsetsMmap.set s.offsetsPos (s.linksPos + links.length) := rfl

@[simp] theorem push_linksPos (s : SerializeState) (links : List PointOffsetType) :
    (s.push links).linksPos = s.linksPos + links.length := rfl

@[simp] theorem push_offsetsPos (s : SerializeState) (links : List PointOffsetType) :
    (s.push links).offsetsPos = s.offsetsPos + 1 := rfl

@[simp] theorem push_levelOffsets (s : SerializeState) (links : List PointOffsetType) :
    (s.push links).levelOffsets = s.levelOffsets := rfl

/-- `offsets` as the loop writes it for the lists `ls`: a first `0`, then where each list ends. -/
def offsetsOf (ls : List (List PointOffsetType)) : List ℕ :=
  (List.range (ls.length + 1)).map fun j => ((ls.map List.length).take j).sum

/-- What the writing loop has done after the lists `ls`: their links are at the front of the
links view, the ends of their ranges at the front of the offsets view, the next places follow,
and the views keep their lengths. -/
structure Laid (ls : List (List PointOffsetType)) (totalLinks totalOffsets : ℕ)
    (s : SerializeState) : Prop where
  linksPos : s.linksPos = ls.flatten.length
  offsetsPos : s.offsetsPos = ls.length + 1
  links : s.linksMmap.take s.linksPos = ls.flatten
  length_links : s.linksMmap.length = totalLinks
  offsets : ∀ j ≤ ls.length, s.offsetsMmap[j]? = some ((ls.map List.length).take j).sum
  length_offsets : s.offsetsMmap.length = totalOffsets

section Laid

variable {ls : List (List PointOffsetType)} {totalLinks totalOffsets : ℕ} {s : SerializeState}

/-- The level offsets are no part of the layout. -/
theorem Laid.setLevelOffsets (h : Laid ls totalLinks totalOffsets s) (levelOffsets : List ℕ) :
    Laid ls totalLinks totalOffsets { s with levelOffsets := levelOffsets } :=
  ⟨h.linksPos, h.offsetsPos, h.links, h.length_links, h.offsets, h.length_offsets⟩

/-- **One call of the callback** lays out one more list, while the views have room for it. -/
theorem Laid.push (h : Laid ls totalLinks totalOffsets s) (links : List PointOffsetType)
    (hlinks : ls.flatten.length + links.length ≤ totalLinks) (hoffsets : ls.length + 1 < totalOffsets) :
    Laid (ls ++ [links]) totalLinks totalOffsets (s.push links) := by
  have hflatten : (ls ++ [links]).flatten = ls.flatten ++ links := by simp
  refine ⟨?_, ?_, ?_, ?_, ?_, ?_⟩
  · rw [push_linksPos, h.linksPos, hflatten, List.length_append]
  · rw [push_offsetsPos, h.offsetsPos, List.length_append, List.length_singleton]
  · -- the new links are written right after the old ones
    have hroom : s.linksPos + links.length ≤ s.linksMmap.length := by
      rw [h.length_links, h.linksPos]
      exact hlinks
    rw [push_linksMmap, push_linksPos, take_writeAt_add _ _ _ hroom, h.links, hflatten]
  · rw [push_linksMmap, length_writeAt, h.length_links]
  · intro j hj
    rw [List.length_append, List.length_singleton] at hj
    rw [push_offsetsMmap, h.offsetsPos, List.map_append]
    by_cases hlast : j = ls.length + 1
    · -- the end of the new list
      rw [hlast, List.getElem?_set_self (by rw [h.length_offsets]; exact hoffsets),
        List.take_of_length_le (by simp), List.sum_append, h.linksPos, List.length_flatten]
      simp
    · rw [List.getElem?_set_ne (Ne.symm hlast), h.offsets j (by omega),
        List.take_append_of_le_length (by rw [List.length_map]; omega)]
  · rw [push_offsetsMmap, List.length_set, h.length_offsets]

/-- The callback over a whole list of lists. -/
theorem Laid.foldl_push :
    ∀ (xs : List (List PointOffsetType)) {ls : List (List PointOffsetType)} {s : SerializeState},
      Laid ls totalLinks totalOffsets s → (ls ++ xs).flatten.length ≤ totalLinks →
      (ls ++ xs).length < totalOffsets →
      Laid (ls ++ xs) totalLinks totalOffsets (xs.foldl (fun s links => s.push links) s)
  | [], ls, s, h, _, _ => by
    rw [List.append_nil]
    exact h
  | x :: xs, ls, s, h, hlinks, hoffsets => by
    have hsplit : ls ++ x :: xs = (ls ++ [x]) ++ xs := by simp
    have hx : ls.flatten.length + x.length ≤ totalLinks := by
      rw [hsplit, List.flatten_append, List.length_append] at hlinks
      simp only [List.flatten_append, List.length_append, List.flatten_cons, List.flatten_nil,
        List.append_nil] at hlinks
      omega
    have hnext := (h.push x hx (by rw [List.length_append] at hoffsets; simp at hoffsets; omega))
    rw [List.foldl_cons, hsplit]
    exact Laid.foldl_push xs hnext (hsplit ▸ hlinks) (hsplit ▸ hoffsets)

end Laid

theorem foldl_push_levelOffsets (xs : List (List PointOffsetType)) (s : SerializeState) :
    (xs.foldl (fun s links => s.push links) s).levelOffsets = s.levelOffsets := by
  induction xs generalizing s with
  | nil => rfl
  | cons x xs ih => rw [List.foldl_cons, ih, push_levelOffsets]

theorem serializeLevel_eq (c : GraphLinksConverter) (s : SerializeState) (level : ℕ) :
    c.serializeLevel s level = (c.levelLinks level).foldl (fun s links => s.push links)
      { s with levelOffsets := s.levelOffsets ++ [s.offsetsPos - 1] } := by
  rw [serializeLevel, levelLinks, List.foldl_map]

/-- **The loop over the levels**, level by level: the lists of the levels so far are laid out,
and each level's offset is the index of its first range. -/
theorem laid_foldl_serializeLevel (c : GraphLinksConverter) {totalLinks totalOffsets : ℕ}
    (hlinks : c.fileLinks.flatten.length ≤ totalLinks) (hoffsets : c.fileLinks.length < totalOffsets)
    {s₀ : SerializeState} (h₀ : Laid [] totalLinks totalOffsets s₀) (hlevel₀ : s₀.levelOffsets = []) :
    ∀ m ≤ c.getLevelsCount,
      Laid ((List.range m).flatMap c.levelLinks) totalLinks totalOffsets
          ((List.range m).foldl c.serializeLevel s₀) ∧
        ((List.range m).foldl c.serializeLevel s₀).levelOffsets = (List.range m).map c.levelStart
  | 0, _ => ⟨h₀, hlevel₀⟩
  | m + 1, hm => by
    obtain ⟨hlaid, hlevels⟩ := laid_foldl_serializeLevel c hlinks hoffsets h₀ hlevel₀ m (by omega)
    -- the lists up to this level are the first lists of the file
    obtain ⟨rest, hrest⟩ := c.fileLinks_eq_append (show m < c.getLevelsCount by omega)
    have hbound : ((List.range m).flatMap c.levelLinks ++ c.levelLinks m).flatten.length ≤
          c.fileLinks.flatten.length ∧
        ((List.range m).flatMap c.levelLinks ++ c.levelLinks m).length ≤ c.fileLinks.length := by
      rw [hrest, ← List.append_assoc]
      simp only [List.flatten_append, List.length_append]
      omega
    rw [List.range_succ, List.foldl_append, List.foldl_cons, List.foldl_nil, serializeLevel_eq,
      List.flatMap_append, List.flatMap_singleton]
    refine ⟨(hlaid.setLevelOffsets _).foldl_push (c.levelLinks m) (hbound.1.trans hlinks)
      (hbound.2.trans_lt hoffsets), ?_⟩
    rw [foldl_push_levelOffsets, hlevels, hlaid.offsetsPos, Nat.add_sub_cancel, List.map_append,
      List.map_singleton]
    rfl

/-- **What `serialize_to` writes through the views**: the file's lists one after another, their
offsets, and the offset of each level. -/
theorem foldl_serializeLevel_eq (c : GraphLinksConverter) {linksMmap : List PointOffsetType}
    {offsetsMmap : List ℕ} (hlinks : linksMmap.length = c.fileLinks.flatten.length)
    (hoffsets : offsetsMmap.length = c.fileLinks.length + 1) (hzero : offsetsMmap[0]? = some 0) :
    ((List.range c.getLevelsCount).foldl c.serializeLevel ⟨linksMmap, offsetsMmap, 0, 1, []⟩).linksMmap =
        c.fileLinks.flatten ∧
      ((List.range c.getLevelsCount).foldl c.serializeLevel
          ⟨linksMmap, offsetsMmap, 0, 1, []⟩).offsetsMmap = offsetsOf c.fileLinks ∧
      ((List.range c.getLevelsCount).foldl c.serializeLevel
          ⟨linksMmap, offsetsMmap, 0, 1, []⟩).levelOffsets =
        (List.range c.getLevelsCount).map c.levelStart := by
  have h₀ : Laid [] c.fileLinks.flatten.length (c.fileLinks.length + 1)
      ⟨linksMmap, offsetsMmap, 0, 1, []⟩ := by
    refine ⟨rfl, rfl, List.take_zero, hlinks, fun j hj => ?_, hoffsets⟩
    rw [Nat.le_zero.mp hj, hzero]
    rfl
  obtain ⟨hlaid, hlevels⟩ := laid_foldl_serializeLevel c le_rfl (Nat.lt_succ_self _) h₀ rfl
    c.getLevelsCount le_rfl
  set s := (List.range c.getLevelsCount).foldl c.serializeLevel ⟨linksMmap, offsetsMmap, 0, 1, []⟩
  refine ⟨?_, ?_, hlevels⟩
  · -- the links view is full
    have hfull := hlaid.links
    rwa [hlaid.linksPos, List.take_of_length_le (by rw [hlaid.length_links]; rfl)] at hfull
  · refine List.ext_getElem? fun j => ?_
    by_cases hj : j ≤ c.fileLinks.length
    · rw [hlaid.offsets j hj, offsetsOf, List.getElem?_map, List.getElem?_range (by omega)]
      rfl
    · rw [List.getElem?_eq_none (by rw [hlaid.length_offsets]; omega),
        List.getElem?_eq_none (by rw [offsetsOf, List.length_map, List.length_range]; omega)]

end GraphLinksConverter

/-! ## 7. The bytes: each section is read back from its range -/

namespace GraphLinksFileHeader

theorem getLevelOffsetsRange_eq (h : GraphLinksFileHeader) :
    h.getLevelOffsetsRange = (64, 64 + h.levelsCount * 8) := rfl

theorem getReindexRange_eq (h : GraphLinksFileHeader) :
    h.getReindexRange = (64 + h.levelsCount * 8, 64 + h.levelsCount * 8 + h.pointCount * 4) := rfl

theorem getLinksRange_eq (h : GraphLinksFileHeader) : h.getLinksRange =
    (64 + h.levelsCount * 8 + h.pointCount * 4,
      64 + h.levelsCount * 8 + h.pointCount * 4 + h.totalLinksLen * 4) := rfl

theorem getOffsetsRange_eq (h : GraphLinksFileHeader) : h.getOffsetsRange =
    (64 + h.levelsCount * 8 + h.pointCount * 4 + h.totalLinksLen * 4,
      64 + h.levelsCount * 8 + h.pointCount * 4 + h.totalLinksLen * 4 + h.totalOffsetsLen * 8) := rfl

end GraphLinksFileHeader

namespace GraphLinksConverter

open GraphLinksFileHeader

section Bytes

variable {c : GraphLinksConverter} (hT : c.fileLinks.flatten.length = c.totalLinksLen)
  (hO : c.fileLinks.length + 1 = c.totalOffsetsLen) {bytesData : List UInt8}
  (hlen : bytesData.length = c.dataSize)

include hT hO hlen in
/-- **`serialize_to`, section by section**: the header, `reindex`, the file's lists, their offsets
and the level offsets, each stored into its range. -/
theorem serializeTo_eq : c.serializeTo bytesData =
    writeAt (writeAt (writeAt (writeAt (c.getHeader.serializeBytesTo bytesData)
      c.getHeader.getReindexRange.1 (encode 4 c.reindex))
      c.getHeader.getLinksRange.1 (encode 4 c.fileLinks.flatten))
      c.getHeader.getOffsetsRange.1 (encode 8 (offsetsOf c.fileLinks)))
      c.getHeader.getLevelOffsetsRange.1
        (encode 8 ((List.range c.getLevelsCount).map c.levelStart)) := by
  unfold serializeTo
  dsimp only
  -- the two views are as long as their sections
  have hD : bytesData.length = 64 + c.getLevelsCount * 8 + c.reindex.length * 4 +
      c.totalLinksLen * 4 + c.totalOffsetsLen * 8 := hlen
  set buffer := writeAt (c.getHeader.serializeBytesTo bytesData) c.getHeader.getReindexRange.1
    (encode 4 c.reindex) with hbuffer
  have hbufferLen : buffer.length = bytesData.length := by
    rw [hbuffer, length_writeAt, serializeBytesTo, length_writeAt]
  have hlinks : (decode 4 (slice buffer c.getHeader.getLinksRange.1
      c.getHeader.getLinksRange.2)).length = c.fileLinks.flatten.length := by
    rw [length_decode, length_slice, hbufferLen, getLinksRange_eq, hT]
    dsimp only [getHeader]
    omega
  have hoffsetsView : (decode 8 (slice buffer c.getHeader.getOffsetsRange.1
      c.getHeader.getOffsetsRange.2)).length = c.fileLinks.length + 1 := by
    rw [length_decode, length_slice, hbufferLen, getOffsetsRange_eq, hO]
    dsimp only [getHeader]
    omega
  have hoffsets : ((decode 8 (slice buffer c.getHeader.getOffsetsRange.1
      c.getHeader.getOffsetsRange.2)).set 0 0).length = c.fileLinks.length + 1 := by
    rw [List.length_set, hoffsetsView]
  have hzero : ((decode 8 (slice buffer c.getHeader.getOffsetsRange.1
      c.getHeader.getOffsetsRange.2)).set 0 0)[0]? = some 0 :=
    List.getElem?_set_self (by rw [hoffsetsView]; omega)
  obtain ⟨hlinksEq, hoffsetsEq, hlevelsEq⟩ := c.foldl_serializeLevel_eq hlinks hoffsets hzero
  have hlevelsCount : c.getHeader.levelsCount = c.getLevelsCount := rfl
  rw [hlevelsCount, hlinksEq, hoffsetsEq, hlevelsEq]

include hT hO hlen in
/-- **Every section is read back from its range**: the header, the level offsets, `reindex`, the
links and the offsets, while every value fits its word. -/
theorem serializeTo_sections (hsize : c.dataSize < 2 ^ 64)
    (hreindex : ∀ x ∈ c.reindex, x < 2 ^ 32) (hlinks : ∀ x ∈ c.fileLinks.flatten, x < 2 ^ 32) :
    deserializeBytesFrom (c.serializeTo bytesData) = c.getHeader ∧
      Qdrant.levelOffsets (c.serializeTo bytesData) c.getHeader =
        (List.range c.getLevelsCount).map c.levelStart ∧
      reindexSlice (c.serializeTo bytesData) c.getHeader = c.reindex ∧
      linksSlice (c.serializeTo bytesData) c.getHeader = c.fileLinks.flatten ∧
      offsetsSlice (c.serializeTo bytesData) c.getHeader = offsetsOf c.fileLinks := by
  have hD : bytesData.length = 64 + c.getLevelsCount * 8 + c.reindex.length * 4 +
      c.totalLinksLen * 4 + c.totalOffsetsLen * 8 := hlen
  have hsize' : 64 + c.getLevelsCount * 8 + c.reindex.length * 4 + c.totalLinksLen * 4 +
      c.totalOffsetsLen * 8 < 2 ^ 64 := hsize
  have h64 : (256 : ℕ) ^ 8 = 2 ^ 64 := by norm_num
  have h32 : (256 : ℕ) ^ 4 = 2 ^ 32 := by norm_num
  -- the lengths of the five stores
  have hlevelsLen : ((List.range c.getLevelsCount).map c.levelStart).length = c.getLevelsCount := by
    rw [List.length_map, List.length_range]
  have hoffsetsLen : (offsetsOf c.fileLinks).length = c.totalOffsetsLen := by
    rw [offsetsOf, List.length_map, List.length_range, hO]
  have hheaderLen : (encode 8 [c.getHeader.pointCount, c.getHeader.levelsCount,
      c.getHeader.totalLinksLen, c.getHeader.totalOffsetsLen]).length = 32 := rfl
  have hbuf₁ : ∀ h : GraphLinksFileHeader, (h.serializeBytesTo bytesData).length = bytesData.length :=
    fun h => length_writeAt ..
  rw [serializeTo_eq hT hO hlen]
  simp only [getLevelOffsetsRange_eq, getReindexRange_eq, getLinksRange_eq, getOffsetsRange_eq]
  refine ⟨?_, ?_, ?_, ?_, ?_⟩
  · -- the header: every later store starts at byte `64`
    unfold deserializeBytesFrom rawSize
    rw [slice_writeAt_of_disjoint _ _ (.inl (by omega)), slice_writeAt_of_disjoint _ _ (.inl (by omega)),
      slice_writeAt_of_disjoint _ _ (.inl (by omega)), slice_writeAt_of_disjoint _ _ (.inl (by omega)),
      serializeBytesTo, decode_slice_writeAt_encode (by norm_num) _ _ (fun w hw => ?_)
        (by simp only [List.length_cons, List.length_nil]; omega) (by norm_num)]
    · rfl
    · simp only [List.mem_cons, List.not_mem_nil, or_false] at hw
      rw [h64]
      rcases hw with rfl | rfl | rfl | rfl <;> dsimp only [getHeader] <;> omega
  · -- the level offsets are the last store
    unfold Qdrant.levelOffsets
    rw [getLevelOffsetsRange_eq, decode_slice_writeAt_encode (by norm_num) _ _ (fun w hw => ?_)
      (by simp only [length_writeAt, hbuf₁, hlevelsLen]; omega)
      (by rw [hlevelsLen]; dsimp only [getHeader]; ring)]
    obtain ⟨l, hl, rfl⟩ := List.mem_map.mp hw
    obtain ⟨rest, hrest⟩ := c.fileLinks_eq_append (List.mem_range.mp hl)
    have hle : c.levelStart l ≤ c.fileLinks.length := by
      rw [hrest, List.length_append]
      exact Nat.le_add_right _ _
    rw [h64]
    omega
  · -- `reindex`: the stores after it do not meet its range
    unfold reindexSlice
    rw [getReindexRange_eq]
    dsimp only [getHeader]
    rw [slice_writeAt_of_disjoint _ _ (.inr (by simp only [length_encode, hlevelsLen]; omega)),
      slice_writeAt_of_disjoint _ _ (.inl (by omega)), slice_writeAt_of_disjoint _ _ (.inl (by omega)),
      decode_slice_writeAt_encode (by norm_num) _ _ (fun w hw => h32 ▸ hreindex w hw)
        (by rw [hbuf₁]; omega) (by ring)]
  · -- the links
    unfold linksSlice
    rw [getLinksRange_eq]
    dsimp only [getHeader]
    rw [slice_writeAt_of_disjoint _ _ (.inr (by simp only [length_encode, hlevelsLen]; omega)),
      slice_writeAt_of_disjoint _ _ (.inl (by omega)),
      decode_slice_writeAt_encode (by norm_num) _ _ (fun w hw => h32 ▸ hlinks w hw)
        (by simp only [length_writeAt, hbuf₁]; rw [hT]; omega) (by rw [hT]; ring)]
  · -- the offsets, each at most the number of links
    unfold offsetsSlice
    rw [getOffsetsRange_eq]
    dsimp only [getHeader]
    rw [slice_writeAt_of_disjoint _ _ (.inr (by simp only [length_encode, hlevelsLen]; omega)),
      decode_slice_writeAt_encode (by norm_num) _ _ (fun w hw => ?_)
        (by simp only [length_writeAt, hbuf₁, hoffsetsLen]; omega) (by rw [hoffsetsLen]; ring)]
    obtain ⟨j, -, rfl⟩ := List.mem_map.mp hw
    have hle := List.sum_take_add_sum_drop (c.fileLinks.map List.length) j
    rw [← List.length_flatten, hT] at hle
    rw [h64]
    omega

end Bytes

end GraphLinksConverter

/-! ## 8. The readers give back every list -/

namespace GraphLinksConverter

open GraphLinksFileHeader

/-- The typed layout, as `GraphLinksRam` holds it. -/
def layout (c : GraphLinksConverter) : GraphLinksRam :=
  ⟨c.fileLinks.flatten, offsetsOf c.fileLinks, (List.range c.getLevelsCount).map c.levelStart,
    c.reindex⟩

section Loaders

variable {c : GraphLinksConverter} (hT : c.fileLinks.flatten.length = c.totalLinksLen)
  (hO : c.fileLinks.length + 1 = c.totalOffsetsLen) {bytesData : List UInt8}
  (hlen : bytesData.length = c.dataSize) (hsize : c.dataSize < 2 ^ 64)
  (hreindex : ∀ x ∈ c.reindex, x < 2 ^ 32) (hlinks : ∀ x ∈ c.fileLinks.flatten, x < 2 ^ 32)
include hT hO hlen hsize hreindex hlinks

/-- `load_from_memory` of the written bytes holds the layout. -/
theorem loadFromMemory_serializeTo :
    GraphLinksRam.loadFromMemory (c.serializeTo bytesData) = c.layout := by
  obtain ⟨hheader, hlevels, hre, hli, hoff⟩ := serializeTo_sections hT hO hlen hsize hreindex hlinks
  unfold GraphLinksRam.loadFromMemory
  dsimp only
  rw [hheader, hli, hoff, hlevels, hre]
  rfl

/-- `load_from_file` of the written bytes answers as the layout does. -/
theorem loadFromFile_serializeTo :
    (GraphLinksMmap.loadFromFile (c.serializeTo bytesData)).toGraphLinks = c.layout.toGraphLinks := by
  obtain ⟨hheader, hlevels, hre, hli, hoff⟩ := serializeTo_sections hT hO hlen hsize hreindex hlinks
  have hoffsetsLen : (c.getHeader.getOffsetsRange.2 - c.getHeader.getOffsetsRange.1) / 8 =
      (offsetsOf c.fileLinks).length := by
    rw [getOffsetsRange_eq, offsetsOf, List.length_map, List.length_range, hO]
    dsimp only [getHeader]
    omega
  unfold GraphLinksMmap.toGraphLinks GraphLinksMmap.loadFromFile GraphLinksRam.toGraphLinks layout
  simp only [GraphLinksMmap.getLinksSlice, GraphLinksMmap.getOffsetsSlice,
    GraphLinksMmap.getReindexSlice, hheader, hli, hoff, hlevels, hre, hoffsetsLen]
  rfl

end Loaders

section Layout

variable (c : GraphLinksConverter)

theorem getD_offsetsOf {ls : List (List PointOffsetType)} {j : ℕ} (hj : j ≤ ls.length) :
    (offsetsOf ls).getD j 0 = ((ls.map List.length).take j).sum := by
  rw [List.getD_eq_getElem?_getD, offsetsOf, List.getElem?_map, List.getElem?_range (by omega)]
  rfl

/-- **The `j`-th range of the layout holds the `j`-th list of the file.** -/
theorem layout_getLinks {j : ℕ} (hj : j < c.fileLinks.length) :
    c.layout.toGraphLinks.getLinks (c.layout.toGraphLinks.getLinksRange j) = c.fileLinks.getD j [] := by
  show slice c.fileLinks.flatten ((offsetsOf c.fileLinks).getD j 0)
    ((offsetsOf c.fileLinks).getD (j + 1) 0) = _
  rw [getD_offsetsOf hj.le, getD_offsetsOf hj, slice, List.getD_eq_getElem _ _ hj]
  exact List.drop_take_succ_flatten_eq_getElem c.fileLinks j hj

/-- The `i`-th list of a level, found after the levels before it. -/
theorem getD_fileLinks {level i : ℕ} (hlevel : level < c.getLevelsCount)
    (hi : i < (c.levelLinks level).length) :
    c.levelStart level + i < c.fileLinks.length ∧
      c.fileLinks.getD (c.levelStart level + i) [] = (c.levelLinks level).getD i [] := by
  obtain ⟨rest, hrest⟩ := c.fileLinks_eq_append hlevel
  rw [hrest, levelStart]
  refine ⟨by simp only [List.length_append]; omega, ?_⟩
  rw [List.getD_eq_getElem?_getD, List.getElem?_append_right (Nat.le_add_right _ _), Nat.add_sub_cancel_left,
    List.getElem?_append_left hi, ← List.getD_eq_getElem?_getD]

/-- The ranges of a level: from its first index to the next level's. -/
theorem getLevelOffsetsRange_layout (level : ℕ) :
    c.layout.toGraphLinks.getLevelOffsetsRange level =
      if level < c.getLevelsCount then some (c.levelStart level, c.levelStart (level + 1))
      else none := by
  have hcount : c.layout.toGraphLinks.levelsCount = c.getLevelsCount := by
    show ((List.range c.getLevelsCount).map c.levelStart).length = _
    rw [List.length_map, List.length_range]
  have hoffset : ∀ l < c.getLevelsCount, c.layout.toGraphLinks.getLevelOffset l = c.levelStart l := by
    intro l hl
    show ((List.range c.getLevelsCount).map c.levelStart).getD l 0 = _
    rw [List.getD_eq_getElem?_getD, List.getElem?_map, List.getElem?_range hl]
    rfl
  -- the last level ends where the ranges end
  have hend : c.layout.toGraphLinks.offsetsLen - 1 = c.levelStart c.getLevelsCount := by
    show (offsetsOf c.fileLinks).length - 1 = _
    rw [offsetsOf, List.length_map, List.length_range, Nat.add_sub_cancel]
    rfl
  unfold GraphLinks.getLevelOffsetsRange
  dsimp only
  rw [hcount]
  split_ifs with hlevel hnext
  · rw [hoffset level hlevel, hoffset (level + 1) hnext]
  · rw [hoffset level hlevel, hend, show level + 1 = c.getLevelsCount by omega]
  · rfl

end Layout

theorem mem_levelLinks {c : GraphLinksConverter} {level : ℕ} {links : List PointOffsetType}
    (h : links ∈ c.levelLinks level) : ∃ p, links = (c.edges.getD p []).getD level [] := by
  unfold levelLinks iterateLevelPoints at h
  split_ifs at h with hlevel
  · obtain ⟨_, hmem, rfl⟩ := List.mem_map.mp h
    obtain ⟨p, -, rfl⟩ := List.mem_map.mp hmem
    exact ⟨p, by rw [hlevel]⟩
  · obtain ⟨_, hmem, rfl⟩ := List.mem_map.mp h
    obtain ⟨p, -, rfl⟩ := List.mem_map.mp hmem
    exact ⟨p, rfl⟩

theorem mem_getD_getD {edges : List (List (List PointOffsetType))} {p level x : ℕ}
    (hx : x ∈ (edges.getD p []).getD level []) : ∃ point ∈ edges, ∃ layer ∈ point, x ∈ layer := by
  rw [List.getD_eq_getElem?_getD (l := edges)] at hx
  cases hpoint : edges[p]? with
  | none => simp [hpoint] at hx
  | some point =>
    rw [hpoint, Option.getD_some, List.getD_eq_getElem?_getD] at hx
    cases hlayer : point[level]? with
    | none => simp [hlayer] at hx
    | some layer =>
      rw [hlayer, Option.getD_some] at hx
      exact ⟨point, List.mem_of_getElem? hpoint, layer, List.mem_of_getElem? hlayer, hx⟩

section Round

variable {sortUnstableByKey : (ℕ → ℕ) → List ℕ → List ℕ} (hsort : SortsByKey sortUnstableByKey)
  {edges : List (List (List PointOffsetType))}
include hsort

/-- A point is the point at its place in `back_index`. -/
theorem exists_backIndex {p : ℕ} (hp : p < edges.length) :
    ∃ i < edges.length, (new sortUnstableByKey edges).backIndex.getD i 0 = p := by
  have hmem : p ∈ (new sortUnstableByKey edges).backIndex :=
    (perm_backIndex_new hsort edges).mem_iff.mpr (List.mem_range.mpr hp)
  obtain ⟨i, hi, rfl⟩ := List.mem_iff_getElem.mp hmem
  exact ⟨i, length_backIndex_new hsort edges ▸ hi, List.getD_eq_getElem _ _ hi⟩

/-- On level `0`, a point's range is its list. -/
theorem layout_links_zero (hlevels : ∀ point ∈ edges, point ≠ []) {p : ℕ} (hp : p < edges.length) :
    (new sortUnstableByKey edges).layout.toGraphLinks.links p 0 = (edges.getD p []).getD 0 [] := by
  set c := new sortUnstableByKey edges
  have hkey : 0 < (edges.getD p []).length := by
    rw [List.getD_eq_getElem _ _ hp, List.length_pos_iff]
    exact hlevels _ (List.getElem_mem hp)
  have hlevel : 0 < c.getLevelsCount := hkey.trans_le (length_le_getLevelsCount hsort edges hp)
  have hin : p < (c.levelLinks 0).length := by
    rw [levelLinks_zero, List.length_map, List.length_range, edges_new]
    exact hp
  obtain ⟨hj, hget⟩ := c.getD_fileLinks hlevel hin
  rw [GraphLinks.links, if_pos rfl]
  rw [levelStart, List.range_zero, List.flatMap_nil, List.length_nil, Nat.zero_add] at hj hget
  rw [c.layout_getLinks hj, hget, levelLinks_zero, List.getD_eq_getElem?_getD, List.getElem?_map,
    List.getElem?_range (by rwa [edges_new]), edges_new]
  rfl

/-- Above level `0`, a point's range is found through `reindex`, and is its list. -/
theorem layout_links_succ (hpoints : edges.length ≤ 2 ^ 32) {p level : ℕ} (hp : p < edges.length)
    (hlevel : level + 1 < (edges.getD p []).length) :
    (new sortUnstableByKey edges).layout.toGraphLinks.links p (level + 1) =
      (edges.getD p []).getD (level + 1) [] := by
  set c := new sortUnstableByKey edges
  obtain ⟨i, hi, hpi⟩ := exists_backIndex hsort hp
  have hreindex : c.layout.toGraphLinks.reindex p = i := by
    show c.reindex.getD p 0 = i
    rw [← hpi]
    exact reindex_getD_backIndex hsort edges hpoints hi
  have hcount : level + 1 < c.getLevelsCount :=
    hlevel.trans_le (length_le_getLevelsCount hsort edges hp)
  have hoffset : c.layout.toGraphLinks.getLevelOffset (level + 1) = c.levelStart (level + 1) := by
    show ((List.range c.getLevelsCount).map c.levelStart).getD (level + 1) 0 = _
    rw [List.getD_eq_getElem?_getD, List.getElem?_map, List.getElem?_range hcount]
    rfl
  -- the point is at its place among the points of the level
  have hin : i < (c.levelLinks (level + 1)).length :=
    (lt_length_levelLinks_succ_iff hsort edges level hi).mpr (hpi ▸ hlevel)
  obtain ⟨hj, hget⟩ := c.getD_fileLinks hcount hin
  rw [GraphLinks.links, if_neg (Nat.succ_ne_zero level)]
  dsimp only
  rw [hreindex, hoffset, c.layout_getLinks hj, hget, List.getD_eq_getElem?_getD,
    getElem?_levelLinks_succ hsort edges level hin, hpi, Option.getD_some]

/-- The loop of `point_level` from a level the point has: it stops at the point's first missing
level. -/
theorem layout_pointLevelFrom {i : ℕ} (hi : i < edges.length) :
    ∀ d level, 1 ≤ level →
      level + d = (edges.getD ((new sortUnstableByKey edges).backIndex.getD i 0) []).length →
      (new sortUnstableByKey edges).layout.toGraphLinks.pointLevelFrom i level =
        (edges.getD ((new sortUnstableByKey edges).backIndex.getD i 0) []).length - 1 := by
  have hkeyL : (edges.getD ((new sortUnstableByKey edges).backIndex.getD i 0) []).length ≤
      (new sortUnstableByKey edges).getLevelsCount := by
    obtain ⟨p, hp, hpi⟩ : ∃ p < edges.length, (new sortUnstableByKey edges).backIndex.getD i 0 = p := by
      refine ⟨_, ?_, rfl⟩
      have hlen := length_backIndex_new hsort edges
      rw [List.getD_eq_getElem _ _ (by omega), ← List.mem_range]
      exact (perm_backIndex_new hsort edges).subset (List.getElem_mem _)
    rw [hpi]
    exact length_le_getLevelsCount hsort edges hp
  intro d
  induction d with
  | zero =>
    -- at the point's first missing level the loop stops, or runs out of levels
    intro level hlevel hkey
    rw [GraphLinks.pointLevelFrom]
    split
    · rename_i offsetsRange hrange
      rw [getLevelOffsetsRange_layout] at hrange
      split_ifs at hrange with hlt
      cases hrange
      obtain ⟨l, rfl⟩ : ∃ l, level = l + 1 := ⟨level - 1, by omega⟩
      have hout : ¬i < ((new sortUnstableByKey edges).levelLinks (l + 1)).length := by
        rw [lt_length_levelLinks_succ_iff hsort edges l hi]
        omega
      dsimp only
      rw [if_pos (by rw [levelStart_succ]; omega)]
      omega
    · omega
  | succ d ih =>
    -- at a level the point has, the loop goes on
    intro level hlevel hkey
    rw [GraphLinks.pointLevelFrom]
    split
    · rename_i offsetsRange hrange
      rw [getLevelOffsetsRange_layout, if_pos (by omega)] at hrange
      cases hrange
      obtain ⟨l, rfl⟩ : ∃ l, level = l + 1 := ⟨level - 1, by omega⟩
      have hin : i < ((new sortUnstableByKey edges).levelLinks (l + 1)).length := by
        rw [lt_length_levelLinks_succ_iff hsort edges l hi]
        omega
      dsimp only
      rw [if_neg (by rw [levelStart_succ]; omega)]
      exact ih (l + 2) (by omega) (by omega)
    · rename_i hrange
      rw [getLevelOffsetsRange_layout, if_pos (by omega)] at hrange
      cases hrange

/-- **The layout gives back every point, level and list.** -/
theorem layout_represents (hlevels : ∀ point ∈ edges, point ≠ []) (hpoints : edges.length ≤ 2 ^ 32) :
    (new sortUnstableByKey edges).layout.toGraphLinks.Represents edges := by
  set c := new sortUnstableByKey edges
  refine ⟨?_, fun p hp => ?_, fun p hp level hlevel => ?_⟩
  · exact length_reindex_new hsort edges
  · obtain ⟨i, hi, hpi⟩ := exists_backIndex hsort hp
    have hkey : 0 < (edges.getD p []).length := by
      rw [List.getD_eq_getElem _ _ hp, List.length_pos_iff]
      exact hlevels _ (List.getElem_mem hp)
    have hreindex : c.layout.toGraphLinks.reindex p = i := by
      show c.reindex.getD p 0 = i
      rw [← hpi]
      exact reindex_getD_backIndex hsort edges hpoints hi
    rw [GraphLinks.pointLevel, hreindex,
      layout_pointLevelFrom hsort hi ((edges.getD p []).length - 1) 1 le_rfl (by rw [hpi]; omega), hpi]
    omega
  · cases level with
    | zero => exact layout_links_zero hsort hlevels hp
    | succ level => exact layout_links_succ hsort hpoints hp hlevel

end Round

/-- Every place written in `reindex` fits a `u32`. -/
theorem reindex_new_lt {sortUnstableByKey : (ℕ → ℕ) → List ℕ → List ℕ}
    (hsort : SortsByKey sortUnstableByKey) (edges : List (List (List PointOffsetType))) :
    ∀ x ∈ (new sortUnstableByKey edges).reindex, x < 2 ^ 32 := by
  rw [reindex_new hsort]
  generalize (new sortUnstableByKey edges).backIndex = bs
  -- every write is of a number modulo `2 ^ 32`, into a list of zeros
  have hwrites : ∀ m, ∀ x ∈ (List.range m).foldl
      (fun reindex i => reindex.set (bs.getD i 0) (i % 2 ^ 32)) (List.replicate edges.length 0),
      x < 2 ^ 32 := by
    intro m
    induction m with
    | zero =>
      intro x hx
      rw [List.range_zero, List.foldl_nil] at hx
      rw [(List.mem_replicate.mp hx).2]
      norm_num
    | succ m ih =>
      intro x hx
      rw [List.range_succ, List.foldl_append, List.foldl_cons, List.foldl_nil] at hx
      rcases List.mem_or_eq_of_mem_set hx with hx | rfl
      · exact ih x hx
      · exact Nat.mod_lt _ (by norm_num)
  exact hwrites _

/-- Every link written is one of the structure's ids. -/
theorem fileLinks_lt {sortUnstableByKey : (ℕ → ℕ) → List ℕ → List ℕ}
    {edges : List (List (List PointOffsetType))}
    (hids : ∀ point ∈ edges, ∀ layer ∈ point, ∀ x ∈ layer, x < 2 ^ 32) :
    ∀ x ∈ (new sortUnstableByKey edges).fileLinks.flatten, x < 2 ^ 32 := by
  intro x hx
  obtain ⟨links, hlinks, hx⟩ := List.mem_flatten.mp hx
  obtain ⟨level, -, hlinks⟩ := List.mem_flatMap.mp hlinks
  obtain ⟨p, rfl⟩ := mem_levelLinks hlinks
  rw [edges_new] at hx
  obtain ⟨point, hpoint, layer, hlayer, hx⟩ := mem_getD_getD hx
  exact hids point hpoint layer hlayer x hx

end GraphLinksConverter

/-! ## 9. The round trip -/

theorem GraphLinks.Represents.toVec_eq {g : GraphLinks} {edges : List (List (List PointOffsetType))}
    (h : g.Represents edges) : g.toVec = edges := by
  unfold GraphLinks.toVec
  rw [h.numPoints]
  refine List.ext_getElem (by rw [List.length_map, List.length_range]) fun p hp₁ hp₂ => ?_
  have hp : p < edges.length := hp₂
  rw [List.getElem_map, List.getElem_range, h.pointLevel p hp]
  -- a point's lists, level by level
  refine List.ext_getElem (by rw [List.length_map, List.length_range, List.getD_eq_getElem _ _ hp])
    fun level hl₁ hl₂ => ?_
  rw [List.length_map, List.length_range] at hl₁
  rw [List.getElem_map, List.getElem_range, h.links p hp level hl₁, List.getD_eq_getElem _ _ hp,
    List.getD_eq_getElem _ _ hl₂]

/-- **GraphLinks round trip.**  For every adjacency structure in which every point has a level
(with `u32` ids, at most `2 ^ 32` points, and a buffer whose size is a `u64`), the bytes
`serialize_to` writes into a buffer of `data_size` bytes, whatever it held, are read back by
`GraphLinksRam::load_from_memory` and by `GraphLinksMmap::load_from_file` as exactly the
structure, for any `sort_unstable_by_key`. -/
theorem graphLinks_round_trip {sortUnstableByKey : (ℕ → ℕ) → List ℕ → List ℕ}
    (hsort : SortsByKey sortUnstableByKey) {edges : List (List (List PointOffsetType))}
    (hlevels : ∀ point ∈ edges, point ≠ [])
    (hids : ∀ point ∈ edges, ∀ layer ∈ point, ∀ x ∈ layer, x < 2 ^ 32)
    (hpoints : edges.length ≤ 2 ^ 32)
    (hsize : (GraphLinksConverter.new sortUnstableByKey edges).dataSize < 2 ^ 64)
    {bytesData : List UInt8}
    (hlen : bytesData.length = (GraphLinksConverter.new sortUnstableByKey edges).dataSize) :
    (GraphLinksRam.loadFromMemory
        ((GraphLinksConverter.new sortUnstableByKey edges).serializeTo bytesData)).toGraphLinks.Represents
        edges ∧
      (GraphLinksMmap.loadFromFile
        ((GraphLinksConverter.new sortUnstableByKey edges).serializeTo bytesData)).toGraphLinks.Represents
        edges := by
  have hT := GraphLinksConverter.length_flatten_fileLinks hsort edges hlevels
  have hO := GraphLinksConverter.length_fileLinks hsort edges hlevels
  have hreindex := GraphLinksConverter.reindex_new_lt hsort edges
  have hlinks : ∀ x ∈ (GraphLinksConverter.new sortUnstableByKey edges).fileLinks.flatten,
      x < 2 ^ 32 := GraphLinksConverter.fileLinks_lt hids
  rw [GraphLinksConverter.loadFromMemory_serializeTo hT hO hlen hsize hreindex hlinks,
    GraphLinksConverter.loadFromFile_serializeTo hT hO hlen hsize hreindex hlinks]
  exact ⟨GraphLinksConverter.layout_represents hsort hlevels hpoints,
    GraphLinksConverter.layout_represents hsort hlevels hpoints⟩

theorem sortsByKey_insertionSort :
    SortsByKey fun (key : ℕ → ℕ) (xs : List ℕ) => xs.insertionSort fun a b => key a ≤ key b := by
  refine ⟨fun key xs => List.perm_insertionSort _ xs, fun key xs => ?_⟩
  have : Std.Total fun a b : ℕ => key a ≤ key b := ⟨fun a b => le_total (key a) (key b)⟩
  have : IsTrans ℕ fun a b => key a ≤ key b := ⟨fun a b c => le_trans⟩
  exact List.pairwise_insertionSort _ xs

/-- The test's three points with no links on the second level, written by `to_bytes`. -/
theorem graphLinks_round_trip_three_points :
    let edges : List (List (List PointOffsetType)) :=
      [[[1, 2]], [[0, 2], [], [2]], [[0, 1], [], [1]]]
    let c := GraphLinksConverter.new (fun key xs => xs.insertionSort fun a b => key a ≤ key b) edges
    c.dataSize < 2 ^ 64 ∧ (GraphLinksRam.loadFromMemory c.toBytes).toGraphLinks.Represents edges ∧
      (GraphLinksMmap.loadFromFile c.toBytes).toGraphLinks.Represents edges := by
  intro edges c
  have hsize : c.dataSize < 2 ^ 64 := by decide
  exact ⟨hsize, graphLinks_round_trip sortsByKey_insertionSort (by decide) (by decide) (by decide)
    hsize List.length_replicate⟩

end Qdrant
