import NeighborSearch.Elementary
import NeighborSearch.Metric.Basic

/-!
# Distances

The distance of two points, given by their coordinates in binary32. All arithmetic is in binary64
and every sum runs over the coordinates in order. A distance is never negative: whatever comes out
at or below zero is reported as zero.
-/

namespace NeighborSearch

/-- The coordinates of a point, as they are stored. -/
abbrev Point := List Float32

/-- The coordinates of two points side by side, as far as both have them. -/
def coordinatePairs (a b : Point) : List (Float × Float) :=
  (a.map widen).zip (b.map widen)

/-- The sum of a list from left to right. It starts from negative zero, the one number that adds
nothing to any other. -/
def total (xs : List Float) : Float :=
  xs.foldl (· + ·) (-0.0)

/-- How far apart two coordinates are. -/
def gap (x y : Float) : Float := (x - y).abs

/-- The arithmetic mean, zero for no numbers. -/
def mean (xs : List Float) : Float :=
  if xs.isEmpty then 0 else total xs / floatOfInt xs.length

namespace Metric

/-- The sum of the squared gaps. -/
def squaresDistance (a b : Point) : Float :=
  total ((coordinatePairs a b).map fun (x, y) => (x - y) * (x - y))

/-- The sum of the gaps in all coordinates. -/
def gapsDistance (a b : Point) : Float :=
  total ((coordinatePairs a b).map fun (x, y) => gap x y)

/-- The largest gap; a gap that is not a number is passed over. -/
def largestGap (a b : Point) : Float :=
  (coordinatePairs a b).foldl
    (fun largest (x, y) => if largest < gap x y then gap x y else largest) 0

/-- The `p`-th root of the sum of the `p`-th powers of the gaps, for any `p`. -/
def powersDistance (p : Float) (a b : Point) : Float :=
  power (total ((coordinatePairs a b).map fun (x, y) => power (gap x y) p)) (1 / p)

/-- The Minkowski distance. The exponents one, two and infinity have their own formulas. -/
def minkowskiDistance (p : Float) (a b : Point) : Float :=
  if p == 1 then gapsDistance a b
  else if p == 2 then (squaresDistance a b).sqrt
  else if p.isInf then largestGap a b
  else powersDistance p a b

/-- Inner product and squared lengths of two points, in that order. -/
structure Products where
  dot : Float
  /-- The squared length of the first point. -/
  left : Float
  /-- The squared length of the second point. -/
  right : Float

/-- The products of two points seen from two centres. -/
def products (centreA centreB : Float) (a b : Point) : Products :=
  (coordinatePairs a b).foldl
    (fun s (x, y) =>
      let u := x - centreA
      let v := y - centreB
      ⟨s.dot + u * v, s.left + u * u, s.right + v * v⟩)
    ⟨0, 0, 0⟩

/-- The number of an interval that is next to the given one; NaN stays. -/
def clamp (low high x : Float) : Float :=
  if x < low then low else if high < x then high else x

/-- One minus the cosine of the angle between two points that have these products. A point of length
zero has no direction and lies at distance one from every other. -/
def angularDistance (s : Products) : Float :=
  if s.left == 0 || s.right == 0 then 1
  else clamp 0 2 (1 - s.dot / (s.left.sqrt * s.right.sqrt))

/-- The angular distance of two points. -/
def cosineDistance (a b : Point) : Float :=
  angularDistance (products 0 0 a b)

/-- The angular distance of two points, each seen from the mean of its coordinates. -/
def correlationDistance (a b : Point) : Float :=
  angularDistance (products (mean (a.map widen)) (mean (b.map widen)) a b)

/-- The sum of the relative gaps; a gap between two zeros counts nothing. -/
def canberraDistance (a b : Point) : Float :=
  total ((coordinatePairs a b).map fun (x, y) =>
    let size := x.abs + y.abs
    if size == 0 then 0 else gap x y / size)

/-- The sum of the gaps relative to the sum of the coordinates, zero if the latter vanishes. -/
def brayCurtisDistance (a b : Point) : Float :=
  let (gaps, sizes) := (coordinatePairs a b).foldl
    (fun (gaps, sizes) (x, y) => (gaps + gap x y, sizes + (x + y).abs)) ((0 : Float), (0 : Float))
  if sizes == 0 then 0 else gaps / sizes

/-- The haversine formula for two points given by latitude and longitude. -/
def greatCircle (latA lonA latB lonB : Float) : Float :=
  let sinLat := sine ((latB - latA) * 0.5)
  let sinLon := sine ((lonB - lonA) * 0.5)
  let root := (sinLat * sinLat + NeighborSearch.cosine latA * NeighborSearch.cosine latB
    * sinLon * sinLon).sqrt
  2 * arcSine (if root < 1 then root else 1)

/-- The great-circle distance, which takes the first two coordinates of each point. -/
def greatCircleDistance? : Point → Point → Option Float
  | latA :: lonA :: _, latB :: lonB :: _ =>
    some (greatCircle (widen latA) (widen lonA) (widen latB) (widen lonB))
  | _, _ => none

/-- The formula of a metric. -/
def formula? (m : Metric) (a b : Point) : Option Float :=
  match m with
  | .euclidean => some (squaresDistance a b).sqrt
  | .sqEuclidean => some (squaresDistance a b)
  | .manhattan => some (gapsDistance a b)
  | .chebyshev => some (largestGap a b)
  | .minkowski p => some (minkowskiDistance p a b)
  | .cosine => some (cosineDistance a b)
  | .correlation => some (correlationDistance a b)
  | .canberra => some (canberraDistance a b)
  | .brayCurtis => some (brayCurtisDistance a b)
  | .haversine => greatCircleDistance? a b

/-- Reports zero for every value at or below zero. -/
def nonnegative (d : Float) : Float :=
  if d ≤ 0 then 0 else d

/-- The distance of two points. Only the great-circle distance of points with fewer than two
coordinates has no value. -/
def distance? (m : Metric) (a b : Point) : Option Float :=
  (m.formula? a b).map nonnegative

end Metric

end NeighborSearch
