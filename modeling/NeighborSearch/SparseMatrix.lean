import NeighborSearch.Matrix

/-!
# Sparse matrices

A `SparseMatrix` lists the entries of its rows one row after another: `offsets` says where each row
starts and ends, `indices` and `values` give column and value of every entry. Entries keep the order
in which they were put in, and entries that share a place add up. `ofParts` admits exactly the
consistent parts; a sparse matrix read from a document need not be consistent.
-/

namespace NeighborSearch

/-- A matrix of which only the listed entries are stored, row by row. -/
structure SparseMatrix where
  rows : Nat
  columns : Nat
  /-- Where the entries of each row start; the last offset is where they all end. -/
  offsets : Array Nat
  indices : Array Nat
  values : Array Float32
deriving BEq, Repr

namespace SparseMatrix

/-- The offsets start at zero, never go down and end at the number of entries. -/
def offsetsCover (offsets : List Nat) (entries : Nat) : Bool :=
  offsets.head? == some 0 && offsets.getLast? == some entries
    && (offsets.zip offsets.tail).all fun (a, b) => a ≤ b

/-- The sparse matrix with the given parts, if they are consistent. -/
def ofParts (rows columns : Nat) (offsets indices : Array Nat) (values : Array Float32)
    (overflow : Overflow := .stops) : Except Error SparseMatrix := do
  let expected ← orOutOfBounds (overflow.sizeFor? offsets.size (rows + 1))
  if offsets.size ≠ expected then
    .error (.sizeMismatch "indptr length" expected offsets.size)
  else if indices.size ≠ values.size then
    .error (.sizeMismatch "data length" indices.size values.size)
  else if !offsetsCover offsets.toList indices.size then
    .error (.invalidInput "indptr must start at 0, be non-decreasing and end at nnz")
  else
    match indices.find? fun c => columns ≤ c with
    | some c =>
      .error (.invalidInput ("column index " ++ Nat.repr c ++ " out of bounds (n_cols="
        ++ Nat.repr columns ++ ")"))
    | none => .ok ⟨rows, columns, offsets, indices, values⟩

/-- The sparse matrix whose rows all have the same number of entries. Rows without entries are not
counted. -/
def ofUniformRows (columns perRow : Nat) (indices : Array Nat) (values : Array Float32) :
    Except Error SparseMatrix :=
  let rows := if perRow = 0 then 0 else indices.size / perRow
  let offsets := (Array.range (rows + 1)).map fun i => i * perRow
  ofParts rows columns offsets indices values

/-- The number of stored entries, explicit zeros included. -/
def entryCount (x : SparseMatrix) : Nat := x.indices.size

/-- The entries of a row, each with its column, in the order they were put in. -/
def row? (x : SparseMatrix) (row : Nat) : Option (List (Nat × Float32)) := do
  let start ← x.offsets[row]?
  let stop ← x.offsets[row + 1]?
  if start ≤ stop ∧ stop ≤ x.indices.size ∧ stop ≤ x.values.size then
    some ((x.indices.extract start stop).toList.zip (x.values.extract start stop).toList)
  else none

/-- The sum of a list from left to right, starting from negative zero. -/
def valueTotal (values : List Float32) : Float32 :=
  values.foldl (· + ·) (-0.0)

/-- The value at a place: the sum of the entries of the row that lie in the column. -/
def get? (x : SparseMatrix) (row column : Nat) : Option Float32 :=
  (x.row? row).map fun entries =>
    valueTotal ((entries.filter fun e => e.1 == column).map Prod.snd)

/-- Adds one entry of a row to a dense matrix. -/
def accumulate? (row : Nat) (dense : Matrix Float32) (entry : Nat × Float32) :
    Option (Matrix Float32) := do
  let before ← dense.get? row entry.1
  dense.set? row entry.1 (before + entry.2)

/-- Adds the entries of so many rows to a dense matrix, the first one being `start`. -/
def accumulateRows? (x : SparseMatrix) :
    (count start : Nat) → Matrix Float32 → Option (Matrix Float32)
  | 0, _, dense => some dense
  | count + 1, start, dense => do
    let entries ← x.row? start
    accumulateRows? x count (start + 1) (← entries.foldlM (accumulate? start) dense)

/-- The matrix with all its zeros, as a program finds it that checks its sizes. There is none of a
shape whose elements find no room. -/
def toDense? (x : SparseMatrix) : Option (Matrix Float32) := do
  let zeros ← Matrix.zeros? x.rows x.columns
  x.accumulateRows? x.rows 0 zeros

end SparseMatrix

end NeighborSearch
