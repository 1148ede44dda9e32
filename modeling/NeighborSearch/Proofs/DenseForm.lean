import NeighborSearch.Proofs.Arithmetic
import NeighborSearch.Proofs.RowPartition

/-!
# Reading a sparse matrix and its dense form

A place of a sparse matrix may have no entry, or several. What is read there is the sum of its
entries in the order of the row. Reading the sparse matrix sums them up from negative zero, and the
dense form, which collects all entries at once, from zero. Both are the sum of these entries and of
no others, up to the sign of zero: `dense_form_agrees`. A few entries are enough for a shape that
no array can hold, and then there is a sparse matrix but no dense form: `wide_has_no_dense_form`.
-/

namespace NeighborSearch

/-- The sum of a list from left to right, zero for no numbers. -/
def leftSum : List Float32 → Float32
  | [] => 0
  | v :: vs => vs.foldl (· + ·) v

/-- Summing up from a zero gives the sum, up to the sign of zero. -/
theorem foldl_alike_leftSum {z : Float32} (hz : z == 0) (vs : List Float32) :
    Alike (vs.foldl (· + ·) z) (leftSum vs) := by
  cases vs with
  | nil => exact Or.inr ⟨hz, by decide⟩
  | cons v vs => exact (Alike.zero_add hz v).foldl_add vs

namespace SparseMatrix

variable {x : SparseMatrix}

/-- A place of the sparse matrix reads as the sum of these values. -/
def Sums (x : SparseMatrix) (i j : Nat) (values : List Float32) : Prop :=
  ∃ v, x.get? i j = some v ∧ Alike v (leftSum values)

/-- A place reads as the sum of these values, both in the sparse matrix and in the dense form. -/
def ReadsAs (x : SparseMatrix) (dense : Matrix Float32) (i j : Nat) (values : List Float32) : Prop :=
  ∃ v w, x.get? i j = some v ∧ dense.get? i j = some w ∧ Alike v w ∧
    Alike v (leftSum values) ∧ Alike w (leftSum values)

section Reading

variable {dense : Matrix Float32} {i j : Nat} {entries : List (Nat × Float32)}

/-- Reading the sparse matrix sums up what the row stores in the column. -/
theorem sums (hrow : x.row? i = some entries) (j : Nat) : x.Sums i j (valuesAt entries j) := by
  refine ⟨valueTotal (valuesAt entries j), ?_, foldl_alike_leftSum (by decide) _⟩
  rw [get?, hrow, Option.map_some]
  rfl

/-- The sparse matrix and a dense form that starts from zero read as the same sum. -/
theorem readsAs (hrow : x.row? i = some entries)
    (hdense : dense.get? i j = some ((valuesAt entries j).foldl (· + ·) 0)) :
    x.ReadsAs dense i j (valuesAt entries j) := by
  obtain ⟨v, hget, hsparse⟩ := sums hrow j
  have hfull : Alike ((valuesAt entries j).foldl (· + ·) 0) (leftSum (valuesAt entries j)) :=
    foldl_alike_leftSum (by decide) _
  exact ⟨_, _, hget, hdense, hsparse.trans hfull.symm, hsparse, hfull⟩

/-- Whatever is stored elsewhere, the dense value at a place is the sum of what is stored there. -/
theorem Consistent.get?_dense (h : x.Consistent) (hdense : x.toDense? = some dense)
    (hi : i < x.rows) (hj : j < x.columns) :
    dense.get? i j = some ((valuesAt (x.entries i) j).foldl (· + ·) 0) := by
  obtain ⟨dense', hexpands, -, -, hvalues⟩ := exists_expands h.readable
  obtain rfl := Option.some.inj (hexpands.expanded.symm.trans (expanded?_of_toDense? hdense))
  exact hvalues i hi j hj

end Reading

/-- A sparse matrix that the constructor takes reads at every place as the sum of what the row
stores in the column. If the elements of its shape find room, it has a dense form, which agrees with
it at every place, and a matrix that stores other entries elsewhere has the same dense value
there. -/
theorem dense_form_agrees {rows columns : Nat} {offsets indices : Array Nat}
    {values : Array Float32} {overflow : Overflow} (hrows : rows < 2 ^ 64)
    (h : ofParts rows columns offsets indices values overflow = .ok x) :
    (∀ i < rows, ∃ entries, x.row? i = some entries ∧
      ∀ j < columns, x.Sums i j (valuesAt entries j)) ∧
    (FitsArray (rows * columns) →
      ∃ dense, x.toDense? = some dense ∧ dense.shape = (rows, columns) ∧
        ∀ i < rows, ∃ entries, x.row? i = some entries ∧ ∀ j < columns,
          x.ReadsAs dense i j (valuesAt entries j) ∧
          ∀ (y : SparseMatrix) (other : Matrix Float32), y.Consistent → y.toDense? = some other →
            i < y.rows → j < y.columns → valuesAt (y.entries i) j = valuesAt entries j →
            other.get? i j = dense.get? i j) := by
  obtain ⟨hx, rfl⟩ :=
    (@ofParts_eq_ok_iff ⟨rows, columns, offsets, indices, values⟩ overflow (fun _ => hrows) x).mp h
  refine ⟨fun i hi => ⟨_, hx.partitioned.read i hi, fun j _ =>
    sums (hx.partitioned.read i hi) j⟩, fun hfits => ?_⟩
  obtain ⟨dense, hexpands, hshape, -⟩ := exists_expands hx.readable
  have hdense := hexpands.toDense?_eq hshape hfits
  refine ⟨dense, hdense, hshape, fun i hi => ⟨_, hx.partitioned.read i hi, fun j hj => ?_⟩⟩
  have hvalue := hx.get?_dense hdense hi hj
  refine ⟨readsAs (hx.partitioned.read i hi) hvalue, ?_⟩
  intro y other hy hother hi' hj' hsame
  rw [hy.get?_dense hother hi' hj', hvalue, hsame]

/-- Entries of one place that cancel out, a place without entries and one with a negative zero. -/
def cancelling : SparseMatrix := ⟨2, 2, #[0, 3, 4], #[1, 0, 1, 0], #[1, 2, -1, -0.0]⟩

theorem cancelling_form_agrees :
    ofParts 2 2 #[0, 3, 4] #[1, 0, 1, 0] #[1, 2, -1, -0.0] = .ok cancelling ∧
      ∃ dense, cancelling.toDense? = some dense ∧ dense.shape = (2, 2) ∧
        cancelling.ReadsAs dense 0 1 [1, -1] ∧ cancelling.ReadsAs dense 1 0 [-0.0] ∧
        cancelling.ReadsAs dense 1 1 [] := by
  have hparts : ofParts 2 2 #[0, 3, 4] #[1, 0, 1, 0] #[1, 2, -1, -0.0] = .ok cancelling := rfl
  obtain ⟨-, hfits⟩ := dense_form_agrees (by decide) hparts
  obtain ⟨dense, hdense, hshape, hrows⟩ := hfits (by decide)
  obtain ⟨first, hfirst, hreads⟩ := hrows 0 (by decide)
  obtain ⟨second, hsecond, hreads'⟩ := hrows 1 (by decide)
  cases hfirst
  cases hsecond
  exact ⟨hparts, dense, hdense, hshape, (hreads 1 (by decide)).1, (hreads' 0 (by decide)).1,
    (hreads' 1 (by decide)).1⟩

/-- One entry in a shape of `2 ^ 64` places. -/
def wide : SparseMatrix := ⟨2, 2 ^ 63, #[0, 1, 1], #[0], #[1]⟩

/-- The parts are taken, but the size of the dense form outgrows a word. A program that checks this
stops; one that does not has no element to add the entry to. -/
theorem wide_has_no_dense_form :
    (∀ overflow, ofParts 2 (2 ^ 63) #[0, 1, 1] #[0] #[1] overflow = .ok wide) ∧
      wide.toDense? = none ∧
      Matrix.zeros? 2 (2 ^ 63) .wraps = some ⟨2, 2 ^ 63, #[]⟩ ∧
      wide.accumulateRows? 2 0 ⟨2, 2 ^ 63, #[]⟩ = none := by
  refine ⟨fun overflow => ?_, ?_, ?_, rfl⟩
  · cases overflow <;> rfl
  · rw [toDense?_eq, if_neg (by decide)]
  · rfl

end SparseMatrix

end NeighborSearch
