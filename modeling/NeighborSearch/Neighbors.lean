import NeighborSearch.SparseMatrix
import NeighborSearch.Traced

/-!
# Answers

`Neighbors` is the answer to a query: a row of indices of stored points for every query point,
nearest first, and their distances if they were asked for. An answer turns into a neighbor graph
with one row for each query point and one column for each stored point.
-/

namespace NeighborSearch

/-- The neighbors found, one row for each query point. -/
structure Neighbors where
  /-- Which stored points are near. -/
  indices : Matrix Nat
  /-- How far away each of them is. -/
  distances : Option (Matrix Float32)
deriving Repr

namespace Neighbors

/-- The numbers of query points and of neighbors of each. -/
def shape (found : Neighbors) : Nat × Nat := found.indices.shape

/-- The entries of the graph, in the order of the neighbors. -/
def graphValues (found : Neighbors) (mode : GraphMode) : Except Error (Array Float32) :=
  match mode, found.distances with
  | .connectivity, _ => .ok (Array.replicate found.indices.data.size 1)
  | .distance, some distances => .ok distances.data
  | .distance, none => .error (.invalidInput "distance graph requires neighbor distances")

/-- The neighbor graph on `columns` stored points. -/
def toGraph (found : Neighbors) (columns : Nat) (mode : GraphMode) : Traced SparseMatrix := do
  let values ← found.graphValues mode
  let k := found.indices.columns
  Traced.emit (.assembly found.indices.data.size k columns mode)
  SparseMatrix.ofUniformRows columns k found.indices.data values

end Neighbors

end NeighborSearch
