/-
# The map index and the full-text index

Two field indexes that store, for each point, the list of its indexed values, and for each
value the set of points that hold it.

* `index/field_index/map_index.rs`: `MapIndex<N>`, for keywords (`N = String`) and integers
  (`N = i64`).  `filter` answers an exact `match` of one value, and `estimate_cardinality`
  also a `match any`, which it combines as a `should`.
* `index/field_index/full_text_index`: the `InvertedIndex` of a `FullTextIndex` keeps, for each
  token, its posting list, and for each point its `Document`, the SET of its tokens.  A query
  is a set of tokens too; a document matches when it holds all of them (`check_match`), and
  `filter` intersects their posting lists.

A `HashMap` and a `BTreeSet` are both ordered maps here (`Lib/OrdMap.lean`, a set being a map
to `Unit`): only `payload_blocks`, which this development leaves out, iterates a `HashMap`.
-/
import Qdrant.Index.Tokenizers
import Qdrant.Lib.OrdMap

namespace Qdrant

open OrdMap

/-! ## 1. Point sets -/

/-- A `BTreeSet<PointOffsetType>`: the ids, ascending. -/
abbrev IdSet := List (PointOffsetType × Unit)

/-- The ids of a set, in ascending order. -/
def IdSet.ids (s : IdSet) : List PointOffsetType := s.map Prod.fst

/-- The elements of a `BTreeSet<K>` built from a list. -/
def sortedSet {κ : Type} [LinearOrder κ] (l : List κ) : List κ :=
  (l.foldl (fun s k => OrdMap.insert k () s) ([] : List (κ × Unit))).map Prod.fst

/-- `Vec::resize(id + 1, default)` when the vector is too short for `id`. -/
def resizeTo {α : Type} (v : List α) (id : ℕ) (default : α) : List α :=
  if v.length ≤ id then v ++ List.replicate (id + 1 - v.length) default else v

/-! ## 2. `MapIndex` -/

variable {N : Type} [LinearOrder N]

/-- `MapIndex<N>`: the points of each value, the values of each point, and two counters. -/
structure MapIndex (N : Type) where
  map : List (N × IdSet)
  pointToValues : List (List N)
  indexedPoints : ℕ
  valuesCount : ℕ

/-- `MapIndex::new`. -/
def MapIndex.new : MapIndex N := ⟨[], [], 0, 0⟩

/-- The points holding `value`, if the map has an entry for it. -/
def MapIndex.points (idx : MapIndex N) (value : N) : Option IdSet := get? value idx.map

/-- `match_cardinality`: the exact number of points holding `value`. -/
def MapIndex.matchCardinality (idx : MapIndex N) (value : N) : CardinalityEstimation :=
  let valuesCount := match idx.points value with
    | none => 0
    | some points => points.length
  ⟨[], valuesCount, valuesCount, valuesCount⟩

/-- `get_values`. -/
def MapIndex.getValues (idx : MapIndex N) (id : PointOffsetType) : Option (List N) :=
  idx.pointToValues[id]?

/-- `self.map.entry(value).or_default().insert(id)`. -/
def MapIndex.linkValue (map : List (N × IdSet)) (id : PointOffsetType) (value : N) :
    List (N × IdSet) :=
  OrdMap.insert value (OrdMap.insert id () ((get? value map).getD [])) map

/-- `add_many_to_map`: nothing for an empty list; otherwise the point's values are REPLACED
and each value gains the point. -/
def MapIndex.addManyToMap (idx : MapIndex N) (id : PointOffsetType) (values : List N) :
    MapIndex N :=
  if values.isEmpty then idx
  else
    { map := values.foldl (fun m v => MapIndex.linkValue m id v) idx.map
      pointToValues := (resizeTo idx.pointToValues id []).set id values
      indexedPoints := idx.indexedPoints + 1
      valuesCount := idx.valuesCount + values.length }

/-- `get_iterator`: the points holding `value`, ascending. -/
def MapIndex.getIterator (idx : MapIndex N) (value : N) : List PointOffsetType :=
  ((idx.points value).map IdSet.ids).getD []

/-- `vals.remove(&id)` in the entry of `value`, if there is one. -/
def MapIndex.unlinkValue (map : List (N × IdSet)) (id : PointOffsetType) (value : N) :
    List (N × IdSet) :=
  match get? value map with
  | none => map
  | some points => OrdMap.insert value (OrdMap.erase id points) map

/-- `remove_point`: take the point's values and unlink each. -/
def MapIndex.removePoint (idx : MapIndex N) (id : PointOffsetType) : MapIndex N :=
  if idx.pointToValues.length ≤ id then idx
  else
    let removed := idx.pointToValues.getD id []
    { map := removed.foldl (fun m v => MapIndex.unlinkValue m id v) idx.map
      pointToValues := idx.pointToValues.set id []
      indexedPoints := if removed.isEmpty then idx.indexedPoints else idx.indexedPoints - 1
      valuesCount := idx.valuesCount - removed.length }

/-! ## 3. The inverted index -/

/-- `Document`: the set of a point's tokens, ascending. -/
abbrev Document := List String

/-- `ParsedQuery::check_match`: the document holds every query token. -/
def checkMatch (query : List String) (document : Document) : Bool :=
  query.all (document.contains ·)

/-- `InvertedIndex`: the posting list of each token, the document of each point, and the
number of documents. -/
structure InvertedIndex where
  postings : List (String × IdSet)
  pointToDocs : List (Option Document)
  pointsCount : ℕ

/-- `InvertedIndex::new`. -/
def InvertedIndex.new : InvertedIndex := ⟨[], [], 0⟩

/-- `index_document`. -/
def InvertedIndex.indexDocument (ii : InvertedIndex) (id : PointOffsetType) (document : Document) :
    InvertedIndex :=
  { postings := document.foldl
      (fun ps token => OrdMap.insert token (OrdMap.insert id () ((get? token ps).getD [])) ps)
      ii.postings
    pointsCount := ii.pointsCount + 1
    pointToDocs := (resizeTo ii.pointToDocs id none).set id (some document) }

/-- `posting.remove(&id)`, and the posting list goes when it becomes empty. -/
def unlinkToken (postings : List (String × IdSet)) (id : PointOffsetType) (token : String) :
    List (String × IdSet) :=
  match get? token postings with
  | none => postings
  | some posting =>
    let posting' := OrdMap.erase id posting
    if posting'.isEmpty then OrdMap.erase token postings else OrdMap.insert token posting' postings

/-- `remove_document`: the removed document, if the point had one. -/
def InvertedIndex.removeDocument (ii : InvertedIndex) (id : PointOffsetType) :
    InvertedIndex × Option Document :=
  if ii.pointToDocs.length ≤ id then (ii, none)
  else match ii.pointToDocs.getD id none with
    | none => ({ ii with pointToDocs := ii.pointToDocs.set id none }, none)
    | some doc =>
      ({ postings := doc.foldl (fun ps token => unlinkToken ps id token) ii.postings
         pointToDocs := ii.pointToDocs.set id none
         pointsCount := ii.pointsCount - 1 }, some doc)

/-- The posting lists of the query tokens, if every token has one. -/
def InvertedIndex.queryPostings (ii : InvertedIndex) (query : List String) : Option (List IdSet) :=
  query.mapM (get? · ii.postings)

/-- `intersect_btree_iterator`: the ids of the first smallest list that every other list
holds. -/
def intersectPostings : List IdSet → List PointOffsetType
  | [] => []
  | p :: ps =>
    let smallest := ((p :: ps).zipIdx.foldl
      (fun best e => if e.1.length < best.1.length then e else best) (p, 0))
    let others := (p :: ps).eraseIdx smallest.2
    smallest.1.ids.filter fun id => others.all fun posting => (get? id posting).isSome

/-- `InvertedIndex::filter`: no result for a query with an unknown token or with no token. -/
def InvertedIndex.filter (ii : InvertedIndex) (query : List String) : List PointOffsetType :=
  match ii.queryPostings query with
  | none => []
  | some [] => []
  | some postings => intersectPostings postings

/-- `InvertedIndex::estimate_cardinality`. -/
def InvertedIndex.estimateCardinality (ii : InvertedIndex) (query : List String)
    (condition : FieldCondition) : CardinalityEstimation :=
  match ii.queryPostings query with
  | none => ⟨[.condition condition], 0, 0, 0⟩
  | some [] => ⟨[.condition condition], 0, 0, 0⟩
  | some (p :: ps) =>
    let smallestPosting := ((p :: ps).map List.length).foldl min p.length
    if ps.isEmpty then ⟨[.condition condition], smallestPosting, smallestPosting, smallestPosting⟩
    else
      let expectedFrac : ℚ := ((p :: ps).map fun posting =>
        (posting.length : ℚ) / ii.pointsCount).prod
      ⟨[.condition condition], 0, ⌊expectedFrac * ii.pointsCount⌋₊, smallestPosting⟩

/-! ## 4. `FullTextIndex` -/

/-- `FullTextIndex`: its inverted index, and the parameters of its tokenizer. -/
structure FullTextIndex where
  invertedIndex : InvertedIndex
  config : TextIndexParams

/-- `get_doc`. -/
def FullTextIndex.getDoc (idx : FullTextIndex) (id : PointOffsetType) : Option Document :=
  (idx.invertedIndex.pointToDocs[id]?).getD none

/-- `parse_query`: the set of the query's tokens. -/
def FullTextIndex.parseQuery (env : Env) (idx : FullTextIndex) (text : String) : List String :=
  sortedSet (tokenizeQuery env text idx.config)

/-- `add_many` of a text index: one document of all the values' tokens. -/
def FullTextIndex.addMany (env : Env) (idx : FullTextIndex) (id : PointOffsetType)
    (values : List String) : FullTextIndex :=
  if values.isEmpty then idx
  else
    let tokens := sortedSet (values.flatMap fun value => tokenizeDoc env value idx.config)
    { idx with invertedIndex := idx.invertedIndex.indexDocument id tokens }

/-- `remove_point` of a text index. -/
def FullTextIndex.removePoint (idx : FullTextIndex) (id : PointOffsetType) : FullTextIndex :=
  { idx with invertedIndex := (idx.invertedIndex.removeDocument id).1 }

end Qdrant
