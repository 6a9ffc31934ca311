/-
# The filter language and its reference checker

A `Filter` (`types.rs`) is a tree: three optional clause lists `should`, `must` and
`must_not`, whose leaves are field conditions (`match`, `range`, geo box and radius,
values count), `is_empty`, `is_null` and `has_id`, and whose inner nodes are nested
filters.  This module embeds the tree and the checker that gives it its MEANING:
`check_filter` of `payload_storage/query_checker.rs`, with the per-value checkers of
`payload_storage/condition_checker.rs`.  Every faster evaluation of a filter elsewhere in the
code (the optimised filter of `index/query_optimization`, the index-driven `query_points`)
is measured against this one.

The leaves are evaluated by a `checker : Condition → Bool` supplied by the caller, exactly
as in the source (`check_filter<F: Fn(&Condition) -> bool>`); `checkPayload` supplies the
payload-reading one.  Three clause semantics are worth stating up front, because the rest of
the development turns on them:

* `should = None` and `must = None` and `must_not = None` impose nothing;
* `should = Some(list)` is `list.iter().any(..)`, so **`should = Some([])` matches no
  point** (`checkFilter_should_nil`);
* `must = Some([])` and `must_not = Some([])` match every point.

A geo radius compares a haversine distance, which the source takes from the `geo` crate; the
model receives it as the field `haversineDistance` of `Env`, the record of everything the
development takes from code it cannot read as a definition.
-/
import Qdrant.Json

namespace Qdrant

/-! ## 1. Point ids and geo points -/

/-- `PointOffsetType = u32`: a point's internal id in one segment. -/
abbrev PointOffsetType := ℕ

/-- `ExtendedPointId`: a numeric id or a UUID (a 128-bit number). -/
inductive ExtendedPointId where
  | numId (n : ℕ)
  | uuid (u : ℕ)
deriving DecidableEq, Repr

/-- `GeoPoint`. -/
structure GeoPoint where
  lon : ℚ
  lat : ℚ
deriving DecidableEq, Repr

/-- `GeoPoint::new`: longitude within `[-180, 180]`, latitude within `[-90, 90]`. -/
def GeoPoint.new (lon lat : ℚ) : Option GeoPoint :=
  if -180 ≤ lon ∧ lon ≤ 180 ∧ -90 ≤ lat ∧ lat ≤ 90 then some ⟨lon, lat⟩ else none

/-! ## 2. The conditions -/

/-- `ValueVariants`: the value of an exact match. -/
inductive ValueVariants where
  | keyword (s : String)
  | integer (i : ℤ)
  | bool (b : Bool)
deriving DecidableEq, Repr

/-- `AnyVariants`: the list of a `match any`. -/
inductive AnyVariants where
  | keywords (l : List String)
  | integers (l : List ℤ)
deriving DecidableEq, Repr

/-- `Match`. -/
inductive Match where
  | value (v : ValueVariants)
  | text (text : String)
  | any (a : AnyVariants)
deriving DecidableEq, Repr

/-- `Range`: strict and non-strict bounds on a number. -/
structure Range where
  lt : Option ℚ := none
  gt : Option ℚ := none
  gte : Option ℚ := none
  lte : Option ℚ := none
deriving DecidableEq, Repr

/-- `ValuesCount`: bounds on the number of values of a field. -/
structure ValuesCount where
  lt : Option ℕ := none
  gt : Option ℕ := none
  gte : Option ℕ := none
  lte : Option ℕ := none
deriving DecidableEq, Repr

/-- `GeoBoundingBox`. -/
structure GeoBoundingBox where
  topLeft : GeoPoint
  bottomRight : GeoPoint
deriving DecidableEq, Repr

/-- `GeoRadius`. -/
structure GeoRadius where
  center : GeoPoint
  radius : ℚ
deriving DecidableEq, Repr

/-- What the model takes from code outside the repository:

* `haversineDistance` is `geo::HaversineDistance::haversine_distance` (metres);
* `exp`, `ln` and `sqrt` are `f64::exp`, `f64::ln` and `f64::sqrt` of the platform's math
  library, on the finite `f64`s the model's rationals stand for;
* `isAlphanumeric`, `isWhitespace` and `toLowercase` are `char::is_alphanumeric`,
  `char::is_whitespace` and `str::to_lowercase`, over the Unicode tables of Rust's core library;
* `alohaChoice` is, for a point that `aloha_random_write` moves to an appendable segment, which
  of the present segments it writes, as an index into them: the first whose `try_write`
  succeeds, or the pick of `entries.choose(&mut rng)` whose lock it then waits for; the lock
  races and `thread_rng` lie outside the model;
* `encodeMaxPrecision` is `geo_hash::encode_max_precision`, the `geohash` crate's encoder at
  length 12; it fails only outside the coordinate ranges that `GeoPoint::new` already
  enforces, so it is total here; `rectangleHashes` and `circleHashes` are the geohash covers
  of `geo_hash.rs` for a bounding box and a radius, at most `max_regions` of them. -/
structure Env where
  haversineDistance : GeoPoint → GeoPoint → ℚ
  exp : ℚ → ℚ
  ln : ℚ → ℚ
  sqrt : ℚ → ℚ
  isAlphanumeric : Char → Bool
  isWhitespace : Char → Bool
  toLowercase : String → String
  alohaChoice : ExtendedPointId → ℕ
  encodeMaxPrecision : GeoPoint → String
  rectangleHashes : GeoBoundingBox → ℕ → List String
  circleHashes : GeoRadius → ℕ → List String

/-- `FieldCondition`: a payload key and up to five sub-conditions, any of which may match. -/
structure FieldCondition where
  key : String
  «match» : Option Match := none
  range : Option Range := none
  geoBoundingBox : Option GeoBoundingBox := none
  geoRadius : Option GeoRadius := none
  valuesCount : Option ValuesCount := none
deriving DecidableEq, Repr

mutual
/-- `Condition`. -/
inductive Condition where
  | field (c : FieldCondition)
  | isEmpty (key : String)
  | isNull (key : String)
  | hasId (ids : List ExtendedPointId)
  | filter (f : Filter)
/-- `Filter`. -/
structure Filter where
  should : Option (List Condition) := none
  must : Option (List Condition) := none
  mustNot : Option (List Condition) := none
end

/-! ## 3. Checking one value -/

/-- `Value::as_f64`. -/
def Value.asF64 : Value → Option ℚ
  | .number n => n.asF64
  | _ => none

/-- `str::contains` on a string pattern: `needle` occurs in `hay`. -/
def strContains (hay needle : String) : Bool :=
  hay.toList.tails.any fun t => needle.toList.isPrefixOf t

/-- `Range::check_range`. -/
def Range.checkRange (r : Range) (x : ℚ) : Bool :=
  r.lt.all (x < ·) && r.gt.all (x > ·) && r.lte.all (x ≤ ·) && r.gte.all (x ≥ ·)

/-- `ValuesCount::check_count`: `null` counts 0, an array its length, anything else 1. -/
def ValuesCount.checkCount (vc : ValuesCount) (v : Value) : Bool :=
  let count := match v with
    | .null => 0
    | .array xs => xs.length
    | _ => 1
  vc.lt.all (count < ·) && vc.gt.all (count > ·) && vc.lte.all (count ≤ ·) &&
    vc.gte.all (count ≥ ·)

/-- `GeoBoundingBox::check_point`: strictly inside the box. -/
def GeoBoundingBox.checkPoint (b : GeoBoundingBox) (lon lat : ℚ) : Bool :=
  b.topLeft.lon < lon && lon < b.bottomRight.lon && b.bottomRight.lat < lat &&
    lat < b.topLeft.lat

/-- `GeoRadius::check_point`: strictly closer than the radius. -/
def GeoRadius.checkPoint (env : Env) (r : GeoRadius) (lon lat : ℚ) : Bool :=
  env.haversineDistance r.center ⟨lon, lat⟩ < r.radius

/-- `Match::check_match`. -/
def Match.checkMatch : Match → Value → Bool
  | .value (.bool val), .bool stored => stored == val
  | .value (.keyword val), .string stored => stored == val
  | .value (.integer val), .number stored => stored.asI64 == some val
  | .value _, _ => false
  | .text t, .string stored => strContains stored t
  | .text _, _ => false
  | .any (.keywords list), .string stored => list.contains stored
  | .any (.integers list), .number stored => (stored.asI64.map list.contains).getD false
  | .any _, _ => false

/-- `ValueChecker::check_match` of the two geo conditions: an object with numeric `lon` and
`lat`, tested by the condition's `check_point`. -/
def checkGeoObject (check : ℚ → ℚ → Bool) : Value → Bool
  | .object obj =>
    match (obj.lookup "lon").bind Value.asF64, (obj.lookup "lat").bind Value.asF64 with
    | some lon, some lat => check lon lat
    | _, _ => false
  | _ => false

/-- `ValueChecker::check`: an array matches when one of its elements does. -/
def checkAnyElement (checkMatch : Value → Bool) : Value → Bool
  | .array vs => vs.any checkMatch
  | v => checkMatch v

/-- One value against all five sub-conditions of a field condition, as the loop body of
`check_field_condition` ORs them. -/
def FieldCondition.checkValue (env : Env) (fc : FieldCondition) (p : Value) : Bool :=
  fc.«match».any (fun m => checkAnyElement m.checkMatch p) ||
  fc.range.any (fun r => checkAnyElement (fun v => (v.asF64.map r.checkRange).getD false) p) ||
  fc.geoRadius.any (fun g => checkAnyElement (checkGeoObject (g.checkPoint env)) p) ||
  fc.geoBoundingBox.any (fun b => checkAnyElement (checkGeoObject b.checkPoint) p) ||
  fc.valuesCount.any (fun vc => vc.checkCount p)

/-- `check_field_condition`: some value under the key satisfies some sub-condition. -/
def checkFieldCondition (env : Env) (fc : FieldCondition) (payload : Payload) : Bool :=
  (payload.getValue fc.key).iter.any (fc.checkValue env)

/-- `check_is_empty_condition`. -/
def checkIsEmptyCondition (key : String) (payload : Payload) : Bool :=
  (payload.getValue key).checkIsEmpty

/-- `check_is_null_condition`. -/
def checkIsNullCondition (key : String) (payload : Payload) : Bool :=
  (payload.getValue key).checkIsNull

/-! ## 4. Checking a filter -/

mutual
/-- `check_condition`: a nested filter is checked recursively, a leaf by the checker. -/
def checkCondition (checker : Condition → Bool) : Condition → Bool
  | .filter f => checkFilter checker f
  | c => checker c
/-- `check_filter`. -/
def checkFilter (checker : Condition → Bool) : Filter → Bool
  | ⟨should, must, mustNot⟩ =>
    checkShould checker should && checkMust checker must && checkMustNot checker mustNot
/-- `check_should`: `None` passes, a list needs one passing condition. -/
def checkShould (checker : Condition → Bool) : Option (List Condition) → Bool
  | none => true
  | some cs => anyCondition checker cs
/-- `check_must`: `None` passes, a list needs every condition. -/
def checkMust (checker : Condition → Bool) : Option (List Condition) → Bool
  | none => true
  | some cs => allConditions checker cs
/-- `check_must_not`: `None` passes, a list needs every condition to fail. -/
def checkMustNot (checker : Condition → Bool) : Option (List Condition) → Bool
  | none => true
  | some cs => noConditions checker cs
/-- `conditions.iter().any(check)`. -/
def anyCondition (checker : Condition → Bool) : List Condition → Bool
  | [] => false
  | c :: cs => checkCondition checker c || anyCondition checker cs
/-- `conditions.iter().all(check)`. -/
def allConditions (checker : Condition → Bool) : List Condition → Bool
  | [] => true
  | c :: cs => checkCondition checker c && allConditions checker cs
/-- `conditions.iter().all(|x| !check(x))`. -/
def noConditions (checker : Condition → Bool) : List Condition → Bool
  | [] => true
  | c :: cs => !checkCondition checker c && noConditions checker cs
end

/-- `check_payload`: the checker of a point whose payload is `payload` and whose external id
(as the id tracker reports it) is `externalId`. -/
def payloadChecker (env : Env) (payload : Payload) (externalId : Option ExtendedPointId) :
    Condition → Bool
  | .field fc => checkFieldCondition env fc payload
  | .isEmpty key => checkIsEmptyCondition key payload
  | .isNull key => checkIsNullCondition key payload
  | .hasId ids => match externalId with
    | none => false
    | some id => ids.contains id
  | .filter _ => false

/-- `check_payload`. -/
def checkPayload (env : Env) (payload : Payload) (externalId : Option ExtendedPointId)
    (query : Filter) : Bool :=
  checkFilter (payloadChecker env payload externalId) query

mutual
/-- The leaves of a condition: itself, or those of its nested filter. -/
def Condition.leaves : Condition → List Condition
  | .filter f => f.leaves
  | c => [c]
/-- The leaves of a filter, in `should`, `must`, `must_not` order: every condition that is not
a nested filter.  The estimator and the condition converter are called on each of them. -/
def Filter.leaves : Filter → List Condition
  | ⟨should, must, mustNot⟩ => clauseLeaves should ++ clauseLeaves must ++ clauseLeaves mustNot
def clauseLeaves : Option (List Condition) → List Condition
  | none => []
  | some cs => listLeaves cs
def listLeaves : List Condition → List Condition
  | [] => []
  | c :: cs => c.leaves ++ listLeaves cs
end

/-! ## 5. The clause lists as list operations -/

section Clauses

variable (checker : Condition → Bool)

@[simp] theorem anyCondition_eq (cs : List Condition) :
    anyCondition checker cs = cs.any (checkCondition checker) := by
  induction cs with
  | nil => rfl
  | cons c cs ih => simp [anyCondition, ih]

@[simp] theorem allConditions_eq (cs : List Condition) :
    allConditions checker cs = cs.all (checkCondition checker) := by
  induction cs with
  | nil => rfl
  | cons c cs ih => simp [allConditions, ih]

@[simp] theorem noConditions_eq (cs : List Condition) :
    noConditions checker cs = cs.all (fun c => !checkCondition checker c) := by
  induction cs with
  | nil => rfl
  | cons c cs ih => simp [noConditions, ih]

@[simp] theorem checkCondition_filter (f : Filter) :
    checkCondition checker (.filter f) = checkFilter checker f := by
  simp [checkCondition]

@[simp] theorem checkFilter_mk (should must mustNot : Option (List Condition)) :
    checkFilter checker ⟨should, must, mustNot⟩ =
      (checkShould checker should && checkMust checker must &&
        checkMustNot checker mustNot) := by
  simp [checkFilter]

/-- **An empty `should` list matches nothing**, whatever the other clauses say. -/
theorem checkFilter_should_nil (must mustNot : Option (List Condition)) :
    checkFilter checker ⟨some [], must, mustNot⟩ = false := by
  simp [checkShould]

end Clauses

end Qdrant
