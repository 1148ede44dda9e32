import NeighborSearch.Matrix
import NeighborSearch.Storage
import Mathlib

/-!
# Rows and elements of matrices

A well-formed matrix has all its rows, and a matrix that is laid out from rows of equal length has
these rows. It also has an element at each of its places, and replacing one leaves the others as
they are. A stack of two matrices has the rows of both. Storing a matrix keeps its shape, and a
stack is stored as its parts are. The size of an array that exists is computed as it is, so a program
that checks its sizes and one that does not make the same well-formed matrices.
-/

namespace NeighborSearch

/-! ## Sizes that a machine holds -/

section Sizes

variable {count length n : Nat}

theorem wordBound_eq : wordBound = 2 ^ 64 := by decide

/-- The elements of an array can be counted by a word. -/
theorem FitsArray.lt_word (h : FitsArray count) : count < 2 ^ 64 := by
  unfold FitsArray at h
  omega

namespace Overflow

/-- A size that is a word is computed as it is. -/
theorem size?_of_lt (overflow : Overflow) (h : n < 2 ^ 64) : overflow.size? n = some n := by
  unfold size?
  rw [wordBound_eq, if_pos h]

/-- A size that is a word is computed as it is, whatever it is compared with. -/
theorem sizeFor?_of_lt (overflow : Overflow) (h : n < 2 ^ 64) :
    overflow.sizeFor? length n = some n := by
  rw [sizeFor?, size?_of_lt overflow h, ite_self]

/-- The size of an array that exists is computed as it is. -/
theorem sizeFor?_self (overflow : Overflow) : overflow.sizeFor? n n = some n :=
  if_pos rfl

/-- A program that checks sizes stops at one that outgrows a word. -/
theorem sizeFor?_stops (hlength : length ≠ n) (h : 2 ^ 64 ≤ n) :
    stops.sizeFor? length n = none := by
  rw [sizeFor?, if_neg hlength, size?, wordBound_eq, if_neg h.not_gt]

/-- A program that does not check sizes goes on with what is left of one that outgrows a word. -/
theorem sizeFor?_wraps (hlength : length ≠ n) (h : 2 ^ 64 ≤ n) :
    wraps.sizeFor? length n = some (n % 2 ^ 64) := by
  rw [sizeFor?, if_neg hlength, size?, wordBound_eq, if_neg h.not_gt]

end Overflow

end Sizes

namespace Matrix

variable {α β : Type}

/-- The elements of a row of a well-formed matrix. -/
def rowAt (x : Matrix α) (i : Nat) : List α :=
  (x.data.extract (i * x.columns) (i * x.columns + x.columns)).toList

theorem WellFormed.row_end {x : Matrix α} (h : x.WellFormed) {i : Nat} (hi : i < x.rows) :
    i * x.columns + x.columns ≤ x.data.size := by
  rw [h, ← Nat.succ_mul]
  exact Nat.mul_le_mul_right _ hi

/-- Every row of a well-formed matrix can be read. -/
theorem row?_eq {x : Matrix α} (h : x.WellFormed) {i : Nat} (hi : i < x.rows) :
    x.row? i = some (x.rowAt i) :=
  if_pos (h.row_end hi)

theorem row?_map (f : α → β) (x : Matrix α) (i : Nat) :
    (x.map f).row? i = (x.row? i).map (·.map f) := by
  simp only [row?, map, Array.size_map]
  split_ifs
  · simp only [Option.map_some, ← Array.toList_map, Array.map_extract]
  · rfl

theorem length_rowAt {x : Matrix α} (h : x.WellFormed) {i : Nat} (hi : i < x.rows) :
    (x.rowAt i).length = x.columns := by
  have hend := h.row_end hi
  simp only [rowAt, Array.length_toList, Array.size_extract]
  omega

theorem rowsFrom?_eq {x : Matrix α} (h : x.WellFormed) (count start : Nat)
    (hend : start + count ≤ x.rows) :
    x.rowsFrom? count start = some ((List.range' start count).map x.rowAt) := by
  induction count generalizing start with
  | zero => rfl
  | succ count ih =>
    simp only [rowsFrom?, row?_eq h (by omega : start < x.rows), ih (start + 1) (by omega)]
    rfl

/-- All rows of a well-formed matrix can be read, in order. -/
theorem rows?_eq {x : Matrix α} (h : x.WellFormed) :
    x.rows? = some ((List.range x.rows).map x.rowAt) := by
  rw [rows?, rowsFrom?_eq h x.rows 0 (by omega), List.range_eq_range']

theorem length_of_rowsFrom? {x : Matrix α} {count start : Nat} {rows : List (List α)}
    (h : x.rowsFrom? count start = some rows) : rows.length = count := by
  induction count generalizing start rows with
  | zero =>
    cases h
    rfl
  | succ count ih =>
    obtain ⟨row, -, h⟩ := Option.bind_eq_some_iff.mp h
    obtain ⟨rest, hrest, h⟩ := Option.bind_eq_some_iff.mp h
    cases h
    rw [List.length_cons, ih hrest]

/-! ## Laying out rows -/

/-- The matrix that has the given rows, each of `columns` elements. -/
def layout (columns : Nat) (rows : List (List α)) : Matrix α :=
  ⟨rows.length, columns, rows.flatten.toArray⟩

variable {k : Nat} {rows : List (List α)}

theorem length_flatten_eq (hrows : ∀ row ∈ rows, row.length = k) :
    rows.flatten.length = rows.length * k := by
  induction rows with
  | nil => simp
  | cons row rows ih =>
    rw [List.flatten_cons, List.length_append, hrows row List.mem_cons_self,
      ih fun r hr => hrows r (List.mem_cons_of_mem row hr), List.length_cons, Nat.succ_mul,
      Nat.add_comm]

theorem length_of_mem_map (f : α → β) (hrows : ∀ row ∈ rows, row.length = k) :
    ∀ row ∈ rows.map (·.map f), row.length = k := by
  intro image himage
  obtain ⟨row, hrow, rfl⟩ := List.mem_map.mp himage
  rw [List.length_map, hrows row hrow]

/-- Rows of equal length make a well-formed matrix. -/
theorem layout_wellFormed (hrows : ∀ row ∈ rows, row.length = k) :
    (layout k rows).WellFormed := by
  simpa [WellFormed, layout] using length_flatten_eq hrows

/-- The constructor takes the elements of a well-formed matrix, whatever becomes of large sizes. -/
theorem WellFormed.ofArray_eq {x : Matrix α} (h : x.WellFormed) (overflow : Overflow) :
    ofArray x.rows x.columns x.data overflow = .ok x := by
  have hsize : overflow.sizeFor? x.data.size (x.rows * x.columns) = some x.data.size := by
    rw [← h, Overflow.sizeFor?_self]
  rw [ofArray, hsize]
  exact if_pos rfl

/-- The constructor takes rows of equal length one after another. -/
theorem ofArray_eq_layout (hrows : ∀ row ∈ rows, row.length = k) :
    ofArray rows.length k rows.flatten.toArray = .ok (layout k rows) :=
  (layout_wellFormed hrows).ofArray_eq .stops

theorem take_drop_flatten (hrows : ∀ row ∈ rows, row.length = k) {i : Nat} {row : List α}
    (hi : rows[i]? = some row) : (rows.flatten.drop (i * k)).take k = row := by
  induction rows generalizing i with
  | nil => simp at hi
  | cons first rows ih =>
    have hfirst := hrows first List.mem_cons_self
    have hrest := fun r hr => hrows r (List.mem_cons_of_mem first hr)
    cases i with
    | zero =>
      rw [List.getElem?_cons_zero, Option.some.injEq] at hi
      rw [List.flatten_cons, Nat.zero_mul, List.drop_zero, List.take_left' hfirst, hi]
    | succ i =>
      rw [List.getElem?_cons_succ] at hi
      rw [List.flatten_cons, Nat.succ_mul, Nat.add_comm, ← List.drop_drop,
        List.drop_left' hfirst, ih hrest hi]

/-- The rows of a layout are those that were laid out. -/
theorem rowAt_layout (hrows : ∀ row ∈ rows, row.length = k) {i : Nat} {row : List α}
    (hi : rows[i]? = some row) : (layout k rows).rowAt i = row := by
  rw [rowAt, layout, List.extract_toArray]
  simp only [List.extract, Nat.add_sub_cancel_left]
  rw [take_drop_flatten hrows hi]

theorem row?_layout (hrows : ∀ row ∈ rows, row.length = k) {i : Nat} {row : List α}
    (hi : rows[i]? = some row) : (layout k rows).row? i = some row := by
  have hlt : i < (layout k rows).rows := (List.getElem?_eq_some_iff.mp hi).1
  rw [row?_eq (layout_wellFormed hrows) hlt, rowAt_layout hrows hi]

/-! ## Elements -/

section Elements

variable {x y : Matrix α} {i j i' j' : Nat} {v : α}

theorem WellFormed.offset_lt (h : x.WellFormed) (hi : i < x.rows) (hj : j < x.columns) :
    x.offset i j < x.data.size := by
  have hend := h.row_end hi
  unfold offset
  omega

/-- Different places have different offsets. -/
theorem offset_inj (hj : j < x.columns) (hj' : j' < x.columns)
    (h : x.offset i j = x.offset i' j') : i = i' ∧ j = j' := by
  have hrow : ∀ i j, j < x.columns → x.offset i j / x.columns = i := by
    intro i j hj
    rw [offset, Nat.add_comm, Nat.add_mul_div_right _ _ (by omega), Nat.div_eq_of_lt hj,
      Nat.zero_add]
  have hi : i = i' := by rw [← hrow i j hj, h, hrow i' j' hj']
  subst hi
  unfold offset at h
  omega

/-- `y` is `x` with the value at one place replaced. -/
structure Updated (x y : Matrix α) (i j : Nat) (v : α) : Prop where
  rows : y.rows = x.rows
  columns : y.columns = x.columns
  wellFormed : y.WellFormed
  here : y.get? i j = some v
  elsewhere : ∀ i' j', j' < x.columns → ¬(i' = i ∧ j' = j) → y.get? i' j' = x.get? i' j'

/-- An element in range can be replaced, and nothing else changes. -/
theorem exists_set? (h : x.WellFormed) (hi : i < x.rows) (hj : j < x.columns) (v : α) :
    ∃ y, x.set? i j v = some y ∧ x.Updated y i j v := by
  have hoffset := h.offset_lt hi hj
  refine ⟨_, dif_pos hoffset, rfl, rfl, ?_, ?_, ?_⟩
  · simpa [WellFormed] using h
  · simp [get?, offset]
  · intro i' j' hj' hplace
    have hne : x.offset i j ≠ x.offset i' j' := by
      intro heq
      obtain ⟨rfl, rfl⟩ := offset_inj hj hj' heq
      exact hplace ⟨rfl, rfl⟩
    exact Array.getElem?_set_ne hoffset hne

theorem exists_get? (h : x.WellFormed) (hi : i < x.rows) (hj : j < x.columns) :
    ∃ v, x.get? i j = some v :=
  ⟨_, Array.getElem?_eq_getElem (h.offset_lt hi hj)⟩

/-- The elements of a row are those at its places. -/
theorem getElem?_rowAt (h : x.WellFormed) (hi : i < x.rows) (hj : j < x.columns) :
    (x.rowAt i)[j]? = x.get? i j := by
  have hend := h.row_end hi
  rw [rowAt, Array.getElem?_toList, Array.getElem?_extract, if_pos (by omega)]
  rfl

/-- Every element of a matrix is at a place. -/
theorem WellFormed.exists_offset (h : x.WellFormed) {p : Nat} (hp : p < x.data.size) :
    ∃ i < x.rows, ∃ j < x.columns, x.offset i j = p := by
  have hplace : p < x.rows * x.columns := h ▸ hp
  have hcolumns : 0 < x.columns := Nat.pos_of_mul_pos_left (Nat.zero_lt_of_lt hplace)
  refine ⟨p / x.columns, (Nat.div_lt_iff_lt_mul hcolumns).mpr hplace, p % x.columns,
    Nat.mod_lt p hcolumns, ?_⟩
  rw [offset, Nat.mul_comm, Nat.div_add_mod]

/-- The elements of a matrix are those of its rows. -/
theorem mem_data_iff (h : x.WellFormed) : v ∈ x.data ↔ ∃ i < x.rows, v ∈ x.rowAt i := by
  constructor
  · intro hv
    obtain ⟨p, hp, rfl⟩ := Array.getElem_of_mem hv
    obtain ⟨i, hi, j, hj, rfl⟩ := h.exists_offset hp
    have hget := getElem?_rowAt h hi hj
    rw [get?, Array.getElem?_eq_getElem hp] at hget
    exact ⟨i, hi, List.mem_of_getElem? hget⟩
  · rintro ⟨i, -, hv⟩
    rw [rowAt, Array.mem_toList_iff, Array.mem_extract_iff_getElem] at hv
    obtain ⟨p, -, rfl⟩ := hv
    exact Array.getElem_mem _

/-- Matrices of one shape are equal if their rows are. -/
theorem eq_of_rows (hx : x.WellFormed) (hy : y.WellFormed) (hshape : x.shape = y.shape)
    (hrows : ∀ i < x.rows, x.row? i = y.row? i) : x = y := by
  obtain ⟨rows, columns, data⟩ := x
  obtain ⟨rows', columns', data'⟩ := y
  obtain ⟨rfl, rfl⟩ : rows = rows' ∧ columns = columns' := Prod.ext_iff.mp hshape
  congr 1
  refine Array.ext (Eq.trans hx (Eq.symm hy)) ?_
  intro p hp hp'
  obtain ⟨i, hi, j, hj, rfl⟩ := hx.exists_offset hp
  have hrow := hrows i hi
  rw [row?_eq hx hi, row?_eq hy hi, Option.some.injEq] at hrow
  have hget := getElem?_rowAt hx hi hj
  rw [hrow, getElem?_rowAt hy hi hj] at hget
  exact Option.some.inj ((Array.getElem?_eq_getElem hp).symm.trans
    (hget.symm.trans (Array.getElem?_eq_getElem hp')))

end Elements

/-! ## Matrices of a given shape -/

/-- The matrix of a given shape with one value everywhere, however many elements these are. -/
def constant (rows columns : Nat) (value : α) : Matrix α :=
  ⟨rows, columns, Array.replicate (rows * columns) value⟩

section Constant

variable {rows columns i j : Nat}

theorem constant_wellFormed (v : α) : (constant rows columns v).WellFormed :=
  Array.size_replicate

theorem get?_constant (hi : i < rows) (hj : j < columns) (v : α) :
    (constant rows columns v).get? i j = some v := by
  have hoffset := (constant_wellFormed v).offset_lt hi hj
  rw [constant_wellFormed] at hoffset
  rw [get?, constant, Array.getElem?_replicate]
  exact if_pos hoffset

/-- A matrix whose elements find room is the same whatever would become of larger sizes. -/
theorem constant?_of_fits (h : FitsArray (rows * columns)) (v : Float32) (overflow : Overflow) :
    constant? rows columns v overflow = some (constant rows columns v) := by
  rw [constant?, overflow.size?_of_lt h.lt_word]
  exact if_pos h

/-- Where sizes are checked there is no matrix whose elements find no room. -/
theorem constant?_eq_none (h : ¬FitsArray (rows * columns)) (v : Float32) :
    constant? rows columns v .stops = none := by
  unfold constant? Overflow.size?
  split_ifs with hword
  · exact if_neg h
  · rfl

/-- The identity has ones on the diagonal and zeros elsewhere. -/
theorem get?_identity? {n : Nat} {x : Matrix Float32} (h : identity? n = some x) (hi : i < n)
    (hj : j < n) : x.get? i j = some (if i = j then 1 else 0) := by
  obtain ⟨-, hx⟩ := Option.ite_none_right_eq_some.mp h
  obtain rfl := Option.some.inj hx
  have hoffset : i * n + j < n * n := by
    have hend := Nat.mul_le_mul_right n (Nat.succ_le_of_lt hi)
    rw [Nat.succ_mul] at hend
    omega
  have hrow : (i * n + j) / n = i := by
    rw [Nat.mul_comm, Nat.mul_add_div (by omega), Nat.div_eq_of_lt hj, Nat.add_zero]
  have hcolumn : (i * n + j) % n = j := by
    rw [Nat.mul_comm, Nat.mul_add_mod, Nat.mod_eq_of_lt hj]
  rw [get?, offset, Array.getElem?_ofFn, dif_pos hoffset, hrow, hcolumn]

end Constant

/-! ## Stacking -/

/-- The rows of one matrix and below them those of another one. -/
def append (x y : Matrix α) : Matrix α :=
  ⟨x.rows + y.rows, x.columns, x.data ++ y.data⟩

section Stacking

variable {x y : Matrix α} {i : Nat}

theorem WellFormed.append (hx : x.WellFormed) (hy : y.WellFormed) (h : x.columns = y.columns) :
    (x.append y).WellFormed := by
  simp only [WellFormed, Matrix.append, Array.size_append]
  rw [hx, hy, ← h, Nat.add_mul]

theorem rowAt_append_left (hx : x.WellFormed) (hi : i < x.rows) :
    (x.append y).rowAt i = x.rowAt i := by
  have hend := hx.row_end hi
  have hstart : i * x.columns - x.data.size = 0 := by omega
  have hstop : i * x.columns + x.columns - x.data.size = 0 := by omega
  simp only [rowAt, Matrix.append, Array.extract_append, hstart, hstop]
  simp

theorem rowAt_append_right (hx : x.WellFormed) (h : x.columns = y.columns) (i : Nat) :
    (x.append y).rowAt (x.rows + i) = y.rowAt i := by
  have hstart : (x.rows + i) * y.columns = x.data.size + i * y.columns := by
    rw [hx, h, Nat.add_mul]
  have hupper : x.data.extract (x.data.size + i * y.columns)
      (x.data.size + i * y.columns + y.columns) = #[] := by
    rw [Array.extract_eq_empty_iff]
    omega
  simp only [rowAt, Matrix.append, h, hstart, Array.extract_append, hupper]
  rw [Array.empty_append, Nat.add_assoc, Nat.add_sub_cancel_left, Nat.add_sub_cancel_left]

/-- The rows of a stack are those of the upper matrix and then those of the lower one. -/
theorem rows?_append (hx : x.WellFormed) (hy : y.WellFormed) (h : x.columns = y.columns) :
    (x.append y).rows?
      = some ((List.range x.rows).map x.rowAt ++ (List.range y.rows).map y.rowAt) := by
  have hupper : (List.range x.rows).map (x.append y).rowAt = (List.range x.rows).map x.rowAt :=
    List.map_congr_left fun i hi => rowAt_append_left hx (List.mem_range.mp hi)
  have hlower : (List.range y.rows).map ((x.append y).rowAt ∘ (x.rows + ·))
      = (List.range y.rows).map y.rowAt :=
    List.map_congr_left fun i _ => rowAt_append_right hx h i
  rw [rows?_eq (hx.append hy h)]
  simp only [Matrix.append] at hupper hlower ⊢
  rw [List.range_add, List.map_append, List.map_map, hupper, hlower]

theorem layout_append (k : Nat) (upper lower : List (List α)) :
    layout k (upper ++ lower) = (layout k upper).append (layout k lower) := by
  simp [layout, Matrix.append]

end Stacking

/-! ## Storing -/

variable [Element α]

theorem WellFormed.narrowed {x : Matrix α} (h : x.WellFormed) : x.narrowed.WellFormed := by
  simpa [WellFormed, Matrix.narrowed, map] using h

theorem toFloat32_eq_ok {x : Matrix α} {allowed : Bool} {q : Matrix Float32}
    (h : x.toFloat32 allowed = .ok q) : q = x.narrowed := by
  unfold toFloat32 at h
  split_ifs at h
  · exact (Except.ok.inj h).symm
  · split at h
    · cases h
    · exact (Except.ok.inj h).symm

theorem narrowed_append (x y : Matrix α) :
    (x.append y).narrowed = x.narrowed.append y.narrowed := by
  simp [narrowed, map, Matrix.append]

/-- A stack is converted part by part, and the first refusal counts. -/
theorem toFloat32_append (x y : Matrix α) (allowed : Bool) :
    (x.append y).toFloat32 allowed = (do
      let upper ← x.toFloat32 allowed
      let lower ← y.toFloat32 allowed
      return upper.append lower) := by
  unfold toFloat32
  split_ifs
  · exact congrArg _ (narrowed_append x y)
  · rfl
  · simp only [Matrix.append, Array.toList_append, List.map_append, List.find?_append]
    cases (x.data.toList.map Element.toFloat).find? outsideFloat32 with
    | some v => rfl
    | none =>
      rw [Option.none_or]
      cases (y.data.toList.map Element.toFloat).find? outsideFloat32 with
      | some v => rfl
      | none => exact congrArg _ (narrowed_append x y)

end Matrix

end NeighborSearch
