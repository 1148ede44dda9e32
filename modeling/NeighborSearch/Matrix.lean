import NeighborSearch.Element
import NeighborSearch.Error
import NeighborSearch.Size

/-!
# Matrices

A `Matrix` keeps its elements row after row in one array. The element in row `i` and column `j` sits
at offset `i * columns + j`, and an access looks at this offset only. The constructors `ofArray` and
`ofRows` give well-formed matrices; a matrix read from a document need not be one, so every access
says by an `Option` whether it found its elements.
-/

namespace NeighborSearch

/-- A rectangular arrangement of elements, stored row after row. -/
structure Matrix (α : Type) where
  rows : Nat
  columns : Nat
  /-- The elements in row-major order. -/
  data : Array α
deriving BEq, Repr

namespace Matrix

variable {α β : Type}

/-- The array holds as many elements as the shape says. -/
def WellFormed (x : Matrix α) : Prop :=
  x.data.size = x.rows * x.columns

/-- Elements do not fill the shape they were given. -/
def dataLengthError : Error := .other "Data length must equal rows * cols"

/-- Rows differ in length. -/
def raggedRowsError : Error := .other "All rows must have the same length"

/-- The matrix of a given shape with the given elements. -/
def ofArray (rows columns : Nat) (data : Array α) (overflow : Overflow := .stops) :
    Except Error (Matrix α) := do
  let size ← orOutOfBounds (overflow.sizeFor? data.size (rows * columns))
  if data.size = size then .ok ⟨rows, columns, data⟩ else .error dataLengthError

/-- The matrix with the given rows. Without any row it has no columns. -/
def ofRows (rows : List (List α)) : Except Error (Matrix α) :=
  let columns := (rows.head?.map List.length).getD 0
  if rows.all (·.length = columns) then .ok ⟨rows.length, columns, rows.flatten.toArray⟩
  else .error raggedRowsError

/-- Whether there are no elements, which does not mean that there are no rows. -/
def isEmpty (x : Matrix α) : Bool := x.data.isEmpty

/-- The numbers of rows and of columns. -/
def shape (x : Matrix α) : Nat × Nat := (x.rows, x.columns)

/-- The place of an element in the array. A place that outgrows a word lies behind every array, as it
does for a program that checks its arithmetic. -/
def offset (x : Matrix α) (row column : Nat) : Nat :=
  row * x.columns + column

/-- The element at the offset of a row and a column. -/
def get? (x : Matrix α) (row column : Nat) : Option α :=
  x.data[x.offset row column]?

/-- Replaces the element at the offset of a row and a column. -/
def set? (x : Matrix α) (row column : Nat) (value : α) : Option (Matrix α) :=
  if h : x.offset row column < x.data.size then
    some { x with data := x.data.set (x.offset row column) value h }
  else none

/-- The elements of a row. -/
def row? (x : Matrix α) (row : Nat) : Option (List α) :=
  let start := row * x.columns
  if start + x.columns ≤ x.data.size then
    some (x.data.extract start (start + x.columns)).toList
  else none

/-- So many rows in order, the first one being `start`. -/
def rowsFrom? (x : Matrix α) : (count start : Nat) → Option (List (List α))
  | 0, _ => some []
  | count + 1, start => do
    let row ← x.row? start
    return row :: (← rowsFrom? x count (start + 1))

/-- All rows in order. -/
def rows? (x : Matrix α) : Option (List (List α)) :=
  x.rowsFrom? x.rows 0

/-- Replaces every element, one by one, and keeps the shape. -/
def map (f : α → β) (x : Matrix α) : Matrix β :=
  ⟨x.rows, x.columns, x.data.map f⟩

/-- The matrix of a given shape with one value everywhere, if its elements find room. A shape whose
size was cut to a word gets too few of them. -/
def constant? (rows columns : Nat) (value : Float32) (overflow : Overflow := .stops) :
    Option (Matrix Float32) := do
  let size ← overflow.size? (rows * columns)
  if FitsArray size then some ⟨rows, columns, Array.replicate size value⟩ else none

/-- The matrix of a given shape that is zero everywhere. -/
def zeros? (rows columns : Nat) (overflow : Overflow := .stops) : Option (Matrix Float32) :=
  constant? rows columns 0 overflow

/-- The matrix of a given shape that is one everywhere. -/
def ones? (rows columns : Nat) (overflow : Overflow := .stops) : Option (Matrix Float32) :=
  constant? rows columns 1 overflow

/-- The square matrix with ones on the diagonal and zeros elsewhere, if its elements find room. -/
def identity? (n : Nat) : Option (Matrix Float32) :=
  if FitsArray (n * n) then
    some ⟨n, n, Array.ofFn fun k : Fin (n * n) => if k.val / n = k.val % n then 1 else 0⟩
  else none

/-- Whether two matrices have the same shape and each element lies within a tolerance of its
partner, `absolute` plus the share `relative` of the second one's size. -/
def allClose (x y : Matrix Float32) (absolute relative : Float32) : Bool :=
  x.shape == y.shape
    && (x.data.toList.zip y.data.toList).all fun (a, b) =>
      (a - b).abs ≤ absolute + relative * b.abs

end Matrix

end NeighborSearch
