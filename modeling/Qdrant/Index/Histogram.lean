/-
# The border histogram of a numeric index

`index/field_index/histogram.rs` keeps, for the values of a numeric index, a sorted map of
BORDERS: points `(val, idx)` (a value and the id of the point that holds it) with two counts,
`left` and `right`, the number of values in the bucket on each side of the border.  A value is
inserted or removed with the help of two callbacks that return the neighbouring value of the
index's own map, and the histogram then either moves a border to that neighbour or opens a new
bucket, keeping each bucket below `current_bucket_size`.  `estimate(from, to)` adds up, over
the chain of borders that the range touches, a linear interpolation of each bucket.

The model keeps the source's three steps apart:

* `Histogram.neighbours` reads the closest and the second closest border on each side;
* `Histogram.insert` and `Histogram.remove` compute an `Adjustment`: the updated neighbours,
  one border to remove and one to create, as the source's `match` does through `ref mut`;
* `Adjustment.apply` writes it back in the source's order.

Both the numeric type and its arithmetic are the source's `Numericable` trait: `i64`, whose
subtraction wraps, whose `to_f64` rounds to the nearest `f64` and whose `from_f64` truncates
towards zero and saturates, and `f64`, modelled by rationals whose every operation is rounded
(`F64.round`).  The borders are a sorted association list (`Lib/OrdMap.lean`),
and the histogram carries its sortedness as a field.  A `BTreeMap::range` whose start lies
above its end panics in the source; `estimate` returns `none` there, and so do `insert` and
`remove` at their `assert_eq!`, `unwrap()` and `unreachable!()`.
-/
import Qdrant.Index.QueryEstimator
import Qdrant.Lib.OrdMap

namespace Qdrant

open OrdMap

/-! ## 1. Numeric types -/

/-- `Numericable`: what the histogram needs of a payload number type. -/
class Numericable (T : Type) [LinearOrder T] where
  minValue : T
  maxValue : T
  toF64 : T → ℚ
  fromF64 : ℚ → T
  /-- `Num`'s subtraction. -/
  sub : T → T → T
  absDiff : T → T → T

/-- Two's-complement wrapping of an integer into `i64`. -/
def wrapI64 (z : ℤ) : ℤ := (z + 2 ^ 63) % 2 ^ 64 - 2 ^ 63

/-- `x as i64` for a finite `x`: truncation towards zero, saturating at the bounds. -/
def f64AsI64 (x : ℚ) : ℤ :=
  if x ≥ 2 ^ 63 then i64Max
  else if x ≤ -2 ^ 63 then -2 ^ 63
  else if 0 ≤ x then ⌊x⌋ else ⌈x⌉

/-- `impl Numericable for i64`: wrapping subtraction, and `abs_diff` as an unsigned difference
cast back to `i64`. -/
instance : Numericable ℤ where
  minValue := -2 ^ 63
  maxValue := i64Max
  toF64 := fun z => F64.round z
  fromF64 := f64AsI64
  sub := fun a b => wrapI64 (a - b)
  absDiff := fun a b => wrapI64 |a - b|

/-- The largest finite `f64`. -/
def f64Max : ℚ := (2 - 2 ^ (-52 : ℤ)) * 2 ^ (1023 : ℤ)

/-- `impl Numericable for f64`, with the trait's default `abs_diff`. -/
instance : Numericable ℚ where
  minValue := -f64Max
  maxValue := f64Max
  toF64 := id
  fromF64 := id
  sub := F64.sub
  absDiff := fun a b => if a > b then F64.sub a b else F64.sub b a

/-! ## 2. Points, counts and the histogram -/

/-- `Point`: a value and the id of the point holding it, ordered by value, then by id. -/
structure Point (T : Type) where
  val : T
  idx : ℕ
deriving DecidableEq, Repr

/-- The order of `Point`: lexicographic on `(val, idx)`. -/
def Point.lexKey {T : Type} (p : Point T) : T ×ₗ ℕ := toLex (p.val, p.idx)

theorem Point.lexKey_injective {T : Type} : Function.Injective (Point.lexKey (T := T)) := by
  rintro ⟨a, i⟩ ⟨b, j⟩ h
  simpa [Point.lexKey] using h

instance {T : Type} [LinearOrder T] : LinearOrder (Point T) :=
  LinearOrder.lift' Point.lexKey Point.lexKey_injective

/-- `Counts`: the number of values in the bucket left and right of a border. -/
structure Counts where
  left : ℕ
  right : ℕ
deriving DecidableEq, Repr

/-- `MIN_BUCKET_SIZE`. -/
def minBucketSize : ℕ := 10

variable {T : Type} [LinearOrder T]

/-- `Histogram`: the borders form a sorted map. -/
structure Histogram (T : Type) [LinearOrder T] where
  maxBucketSize : ℕ
  precision : ℚ
  totalCount : ℕ
  borders : List (Point T × Counts)
  sorted : Sorted borders

/-- `Histogram::new`. -/
def Histogram.new (maxBucketSize : ℕ) (precision : ℚ) : Histogram T :=
  ⟨maxBucketSize, precision, 0, [], OrdMap.sorted_nil⟩

/-- `current_bucket_size`: `total_count · precision` in `f64`, truncated and clamped. -/
def Histogram.currentBucketSize (h : Histogram T) : ℕ :=
  let bucketSize := ⌊F64.mul (F64.round h.totalCount) h.precision⌋₊
  if bucketSize < minBucketSize then minBucketSize
  else if bucketSize > h.maxBucketSize then h.maxBucketSize
  else bucketSize

/-! ## 3. Writing an adjustment back -/

/-- What one `insert` or `remove` writes back: the (possibly updated) close and far
neighbours, a border to remove and a border to create. -/
structure Adjustment (T : Type) where
  closeLeft : Option (Point T × Counts)
  closeRight : Option (Point T × Counts)
  farLeft : Option (Point T × Counts)
  farRight : Option (Point T × Counts)
  toRemove : Option (Point T) := none
  toCreate : Option (Point T × Counts) := none

/-- `if let Some((k, v)) = e { borders.insert(k, v) }`. -/
def insertOpt : Option (Point T × Counts) → List (Point T × Counts) → List (Point T × Counts)
  | none, m => m
  | some (k, v), m => OrdMap.insert k v m

/-- `if let Some(k) = e { borders.remove(&k) }`. -/
def eraseOpt : Option (Point T) → List (Point T × Counts) → List (Point T × Counts)
  | none, m => m
  | some k, m => OrdMap.erase k m

theorem sorted_insertOpt (e : Option (Point T × Counts)) {m : List (Point T × Counts)}
    (h : Sorted m) : Sorted (insertOpt e m) := by
  cases e with
  | none => exact h
  | some kv => exact sorted_insert h

theorem sorted_eraseOpt (k : Option (Point T)) {m : List (Point T × Counts)}
    (h : Sorted m) : Sorted (eraseOpt k m) := by
  cases k with
  | none => exact h
  | some k => exact sorted_erase h

/-- The write-back that ends both `insert` and `remove`, in the source's order. -/
def Adjustment.apply (a : Adjustment T) (m : List (Point T × Counts)) : List (Point T × Counts) :=
  insertOpt a.toCreate <| eraseOpt a.toRemove <| insertOpt a.farRight <| insertOpt a.farLeft <|
    insertOpt a.closeRight <| insertOpt a.closeLeft m

theorem Adjustment.sorted_apply (a : Adjustment T) {m : List (Point T × Counts)} (h : Sorted m) :
    Sorted (a.apply m) :=
  sorted_insertOpt _ <| sorted_eraseOpt _ <| sorted_insertOpt _ <| sorted_insertOpt _ <|
    sorted_insertOpt _ <| sorted_insertOpt _ h

/-- The histogram after an adjustment, with `total_count` set to `total`. -/
def Histogram.adjust (h : Histogram T) (total : ℕ) (a : Adjustment T) : Histogram T :=
  { h with totalCount := total, borders := a.apply h.borders, sorted := a.sorted_apply h.sorted }

/-! ## 4. `estimate` -/

variable [Numericable T]

/-- The estimate of one bucket `[a, b]` for the range `[fromVal, toVal]`: a linear
interpolation of `a`'s right count, exact when the bucket is covered or has zero width. -/
def windowEstimate (fromVal toVal : T) (a b : Point T × Counts) : ℕ × ℕ × ℕ :=
  let valRange := Numericable.toF64 (Numericable.sub b.1.val a.1.val)
  if valRange = 0 then (a.2.right + 1, a.2.right + 1, a.2.right + 1)
  else if a.2.right = 0 then (1, 1, 1)
  else
    let coverRange := Numericable.toF64 (Numericable.sub (min toVal b.1.val) (max fromVal a.1.val))
    let coveredFrac := F64.div coverRange valRange
    let estimate := f64Round (F64.mul (F64.round a.2.right) coveredFrac) + 1
    (if coverRange = valRange then a.2.right + 1 else 0, estimate, a.2.right + 1)

/-- `(a, b, c) + (a', b', c')`. -/
def addTriples (x y : ℕ × ℕ × ℕ) : ℕ × ℕ × ℕ := (x.1 + y.1, x.2.1 + y.2.1, x.2.2 + y.2.2)

/-- `Histogram::estimate(from, to)`: `(min, exp, max)` of the number of values in the range. -/
def Histogram.estimate (h : Histogram T) (from_ to_ : Bound T) : Option (ℕ × ℕ × ℕ) :=
  let fromP : Bound (Point T) := match from_ with
    | .included v => .included ⟨v, 0⟩
    | .excluded v => .excluded ⟨v, usizeMax⟩
    | .unbounded => .unbounded
  let toP : Bound (Point T) := match to_ with
    | .included v => .included ⟨v, usizeMax⟩
    | .excluded v => .excluded ⟨v, 0⟩
    | .unbounded => .unbounded
  let fromVal := match from_ with
    | .included v | .excluded v => v
    | .unbounded => Numericable.minValue
  let toVal := match to_ with
    | .included v | .excluded v => v
    | .unbounded => Numericable.maxValue
  if toVal < fromVal then some (0, 0, 0)
  else if !rangeValid fromP toP then none
  else
    let leftBorder := match fromP with
      | .unbounded => none
      | _ => (range .unbounded fromP h.borders).getLast?
    let rightBorder := match toP with
      | .unbounded => none
      | _ => (range toP .unbounded h.borders).head?
    let chain := leftBorder.toList ++ range fromP toP h.borders ++ rightBorder.toList
    -- `tuple_windows` over the chain, then `reduce` by summing
    match (chain.zip chain.tail).map (fun w => windowEstimate fromVal toVal w.1 w.2) with
    | [] => some (0, 0, 0)
    | e :: es => some (es.foldl addTriples e)

/-! ## 5. `insert` and `remove` -/

/-- The closest and the second closest border on each side of `val`: the last two at or
below it, and the first two above it. -/
def Histogram.neighbours (h : Histogram T) (val : Point T) :
    (Option (Point T × Counts) × Option (Point T × Counts)) ×
      (Option (Point T × Counts) × Option (Point T × Counts)) :=
  let left := range .unbounded (.included val) h.borders
  let right := range (.excluded val) .unbounded h.borders
  ((left.getLast?, right.head?), (left.dropLast.getLast?, right.tail.head?))

/-- Set the right count of a border. -/
def setRight (n : ℕ) (e : Point T × Counts) : Point T × Counts := (e.1, { e.2 with right := n })

/-- Set the left count of a border. -/
def setLeft (n : ℕ) (e : Point T × Counts) : Point T × Counts := (e.1, { e.2 with left := n })

/-- The adjustment of `Histogram::insert` once it has at least two borders; `none` where the
source panics. -/
def Histogram.insertAdjustment (h : Histogram T) (val : Point T)
    (leftNeighbour rightNeighbour : Point T → Option (Point T)) : Option (Adjustment T) :=
  let ((cl, cr), (fl, fr)) := h.neighbours val
  let bucket := h.currentBucketSize
  match cl, cr with
  | none, some (rb, rbc) =>
    -- x|.....|...
    let newCount := rbc.right + 1
    if newCount > bucket then some ⟨cl, cr, fl, fr, none, some (val, ⟨0, 0⟩)⟩
    else some ⟨cl, cr, fl, fr.map (setLeft newCount), some rb, some (val, ⟨0, newCount⟩)⟩
  | some (lb, lbc), none =>
    -- ...|.....|x
    let newCount := lbc.left + 1
    if newCount > bucket then some ⟨cl, cr, fl, fr, none, some (val, ⟨0, 0⟩)⟩
    else some ⟨cl, cr, fl.map (setRight newCount), fr, some lb, some (val, ⟨newCount, 0⟩)⟩
  | some (lb, lbc), some (rb, rbc) =>
    if lbc.right ≠ rbc.left then none
    else
      let newCount := lbc.right + 1
      if newCount > bucket then
        -- too many values: move the closer border, or open a bucket next to it
        if Numericable.absDiff val.val lb.val < Numericable.absDiff val.val rb.val then
          match rightNeighbour lb with
          | none => none
          | some nb =>
            if lbc.left < bucket ∧ fl.isSome then
              some ⟨cl, cr, fl.map (setRight (lbc.left + 1)), fr, some lb,
                some (nb, ⟨lbc.left + 1, lbc.right⟩)⟩
            else some ⟨some (lb, { lbc with right := 0 }), cr, fl, fr, none,
              some (nb, ⟨0, lbc.right⟩)⟩
        else
          match leftNeighbour rb with
          | none => none
          | some nb =>
            if rbc.right < bucket ∧ fr.isSome then
              some ⟨cl, cr, fl, fr.map (setLeft (rbc.right + 1)), some rb,
                some (nb, ⟨rbc.left, rbc.right + 1⟩)⟩
            else some ⟨cl, some (rb, { rbc with left := 0 }), fl, fr, none,
              some (nb, ⟨rbc.left, 0⟩)⟩
      else
        some ⟨some (lb, { lbc with right := newCount }), some (rb, { rbc with left := newCount }),
          fl, fr, none, none⟩
  | none, none => none

/-- `Histogram::insert`: a new value, whose neighbours in the index's map the two callbacks
return. -/
def Histogram.insert (h : Histogram T) (val : Point T)
    (leftNeighbour rightNeighbour : Point T → Option (Point T)) : Option (Histogram T) :=
  let h' := { h with totalCount := h.totalCount + 1 }
  if h'.borders.length < 2 then
    some { h' with borders := OrdMap.insert val ⟨0, 0⟩ h'.borders, sorted := sorted_insert h'.sorted }
  else (h'.insertAdjustment val leftNeighbour rightNeighbour).map (h'.adjust h'.totalCount)

/-- The adjustment of `Histogram::remove`, and whether a value was removed; `none` where the
source panics. -/
def Histogram.removeAdjustment (h : Histogram T) (val : Point T)
    (leftNeighbour rightNeighbour : Point T → Option (Point T)) : Option (Adjustment T × Bool) :=
  let ((cl, cr), (fl, fr)) := h.neighbours val
  let bucket := h.currentBucketSize
  let unchanged : Adjustment T := ⟨cl, cr, fl, fr, none, none⟩
  match cl, cr with
  | none, none => some (unchanged, false)
  | some (lb, lbc), none =>
    if lb = val then
      if lbc.left = 0 then some (⟨cl, cr, fl, fr, some lb, none⟩, true)
      else match leftNeighbour lb with
        | none => none
        | some nb => some (⟨cl, cr, fl.map fun e => setRight (e.2.right - 1) e, fr, some lb,
            some (nb, ⟨lbc.left - 1, 0⟩)⟩, true)
    else some (unchanged, false)
  | none, some (rb, rbc) =>
    if rb = val then
      if rbc.right = 0 then some (⟨cl, cr, fl, fr, some rb, none⟩, true)
      else match rightNeighbour rb with
        | none => none
        | some nb => some (⟨cl, cr, fl, fr.map fun e => setLeft (e.2.left - 1) e, some rb,
            some (nb, ⟨0, rbc.right - 1⟩)⟩, true)
    else some (unchanged, false)
  | some (lb, lbc), some (rb, rbc) =>
    if lb = val then
      if lbc.right = 0 then
        some (⟨cl, some (rb, { rbc with left := lbc.left }), fl, fr, some lb, none⟩, true)
      else if rbc.left + lbc.left ≤ bucket ∧ fl.isSome then
        -- the far left border absorbs the bucket; the right border takes its new count
        let fl' := fl.map fun e => setRight (e.2.right + rbc.left) e
        let merged := (fl'.map (·.2.right)).getD rbc.left
        some (⟨cl, some (rb, { rbc with left := merged }), fl', fr, some lb, none⟩, true)
      else match rightNeighbour lb with
        | none => none
        | some nb => some (⟨cl, some (rb, { rbc with left := rbc.left - 1 }), fl, fr, some lb,
            some (nb, ⟨lbc.left, lbc.right - 1⟩)⟩, true)
    else if rb = val then
      if rbc.left = 0 then
        some (⟨some (lb, { lbc with right := rbc.left }), cr, fl, fr, some rb, none⟩, true)
      else if lbc.right + rbc.right ≤ bucket ∧ fr.isSome then
        let fr' := fr.map fun e => setLeft (e.2.left + lbc.right) e
        let merged := (fr'.map (·.2.left)).getD lbc.right
        some (⟨some (lb, { lbc with right := merged }), cr, fl, fr', some rb, none⟩, true)
      else match leftNeighbour rb with
        | none => none
        | some nb => some (⟨some (lb, { lbc with right := lbc.right - 1 }), cr, fl, fr, some rb,
            some (nb, ⟨rbc.right, rbc.left - 1⟩)⟩, true)
    else if rbc.left = 0 then some (unchanged, false)
    else
      some (⟨some (lb, { lbc with right := lbc.right - 1 }),
        some (rb, { rbc with left := rbc.left - 1 }), fl, fr, none, none⟩, true)

/-- `Histogram::remove`. -/
def Histogram.remove (h : Histogram T) (val : Point T)
    (leftNeighbour rightNeighbour : Point T → Option (Point T)) : Option (Histogram T) :=
  (h.removeAdjustment val leftNeighbour rightNeighbour).map fun (a, removed) =>
    h.adjust (if removed then h.totalCount - 1 else h.totalCount) a

/-! ## 6. What a histogram represents

The source's `validate` checks only that two consecutive borders agree on the count between
them.  Stated over the set `S` of stored points, a histogram REPRESENTS `S` when it counts `S`,
its borders are points of `S` including the least and the greatest, the outer counts are zero,
and the count two consecutive borders share is the number of points strictly between them. -/

/-- The representation invariant of a histogram over the stored points `S`. -/
structure Histogram.Represents (h : Histogram T) (S : Finset (Point T)) : Prop where
  totalCount_eq : h.totalCount = S.card
  border_mem : ∀ b ∈ h.borders, b.1 ∈ S
  min_mem : ∀ x ∈ S, (∀ y ∈ S, x ≤ y) → x ∈ h.borders.map Prod.fst
  max_mem : ∀ x ∈ S, (∀ y ∈ S, y ≤ x) → x ∈ h.borders.map Prod.fst
  head_left : ∀ b ∈ h.borders.head?, b.2.left = 0
  last_right : ∀ b ∈ h.borders.getLast?, b.2.right = 0
  chain : h.borders.IsChain fun a b =>
    a.2.right = b.2.left ∧ a.2.right = (S.filter fun x => a.1 < x ∧ x < b.1).card

/-- The number of stored points whose value lies between the two bounds. -/
def pointsWithin (S : Finset (Point T)) (from_ to_ : Bound T) : ℕ :=
  (S.filter fun x => from_.above x.val ∧ to_.below x.val).card

/-- **`estimate` is not a bound.**  Two values inserted into a new histogram (the index's own
parameters) give two borders with empty buckets, a histogram that represents both; over the
whole range, the one window of the chain counts its left border and never the right one, so
the estimate's maximum is 1 where the range holds 2 values. -/
theorem estimate_below_count :
    ∃ h : Histogram ℤ,
      ((Histogram.new 10000 0.01).insert ⟨0, 0⟩ (fun _ => none) (fun _ => none) >>=
        fun h => h.insert ⟨1, 1⟩ (fun _ => some ⟨0, 0⟩) (fun _ => none)) = some h ∧
      h.Represents {⟨0, 0⟩, ⟨1, 1⟩} ∧
      h.estimate .unbounded .unbounded = some (1, 1, 1) ∧
      pointsWithin {⟨0, 0⟩, ⟨1, 1⟩} (.unbounded : Bound ℤ) .unbounded = 2 := by
  refine ⟨_, rfl, ⟨?_, ?_, ?_, ?_, ?_, ?_, ?_⟩, ?_, ?_⟩ <;> decide +kernel

end Qdrant
