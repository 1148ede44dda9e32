import NeighborSearch.Matrix
import NeighborSearch.Metric.Distance
import NeighborSearch.Query

/-!
# Ranking by distance

Every stored point is a `Candidate` for every query point. Candidates are ranked by ascending
distance; a distance that is not a number ranks after all others, and equal distances rank by index.
The neighbors of a point are the first `k` candidates of its ranking.
-/

namespace NeighborSearch

/-- A stored point, by its index, and its distance from the query point. -/
structure Candidate where
  distance : Float
  index : Nat
deriving DecidableEq, Repr

/-- The least bit pattern with a minus sign. -/
def leastSigned : Nat := 0x8000000000000000

/-- The place of a number in the total order of binary64 numbers, in which negative zero comes
before zero. -/
def orderKey (x : Float) : Int :=
  let bits := x.toBits.toNat
  if bits < leastSigned then bits else leastSigned - 1 - bits

namespace Candidate

/-- Compares distances, those that are not a number coming last. -/
def compareDistance (a b : Float) : Ordering :=
  match a.isNaN, b.isNaN with
  | false, false => compare (orderKey a) (orderKey b)
  | false, true => .lt
  | true, false => .gt
  | true, true => .eq

/-- Nearer candidates come first, and equally near ones in the order of their indices. -/
def rank (a b : Candidate) : Ordering :=
  (compareDistance a.distance b.distance).then (compare a.index b.index)

/-- Whether the first candidate ranks no later than the second. -/
def before (a b : Candidate) : Bool :=
  (rank a b).isLE

/-- Puts a candidate at its place in a ranking. -/
def insertRanked (c : Candidate) : List Candidate → List Candidate
  | [] => [c]
  | d :: ds => if c.before d then c :: d :: ds else d :: insertRanked c ds

/-- The candidates in order. -/
def ranking (candidates : List Candidate) : List Candidate :=
  candidates.foldr insertRanked []

/-- Leaves out the candidate with a given index. If it did not make it into the list, the first
candidate is left out in its place. -/
def leaveOut (index : Nat) (nearest : List Candidate) : List Candidate :=
  if nearest.any (·.index == index) then nearest.eraseP (·.index == index) else nearest.drop 1

end Candidate

/-- All stored points as candidates for a query point. -/
def candidates? (metric : Metric) (points : List Point) (query : Point) :
    Option (List Candidate) :=
  points.zipIdx.mapM fun (point, j) => (metric.distance? query point).map (⟨·, j⟩)

/-- The `k` nearest of the stored points. -/
def nearest? (metric : Metric) (points : List Point) (k : Nat) (query : Point) :
    Option (List Candidate) :=
  (candidates? metric points query).map fun cs => (Candidate.ranking cs).take k

/-- The neighbors of the query point with index `i`. To leave out the stored point `i`, one more
candidate is taken and then dropped. -/
def neighborsOf? (metric : Metric) (points : List Point) (k : Nat) (selfMatch : SelfMatch)
    (query : Point) (i : Nat) : Option (List Candidate) :=
  match selfMatch with
  | .include => nearest? metric points k query
  | .exclude => (nearest? metric points (k + 1) query).map (Candidate.leaveOut i)

/-- The neighbors of every row of `queries` among the rows of `reference`. -/
def search? (metric : Metric) (reference queries : Matrix Float32) (k : Nat)
    (selfMatch : SelfMatch) : Option (List (List Candidate)) := do
  let points ← reference.rows?
  (← queries.rows?).zipIdx.mapM fun (query, i) => neighborsOf? metric points k selfMatch query i

end NeighborSearch
