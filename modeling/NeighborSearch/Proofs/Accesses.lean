import NeighborSearch.Proofs.Matrix

/-!
# Accesses by offset

An access to an element looks at its offset and at nothing else. A column past the end of a row has
the offset of an element of a later row, as long as there is one, and a row of a matrix without
columns takes no elements, wherever it is. Exactly these accesses get past the bounds of a
well-formed matrix, `accesses_checked_iff`.
-/

namespace NeighborSearch

namespace Matrix

variable {α : Type} {x : Matrix α} {i j : Nat}

/-- An access to the element in row `i` and column `j` succeeds exactly if the matrix has this
place, and reads and writes nothing but this place. -/
structure PlaceChecked (x : Matrix α) (i j : Nat) : Prop where
  get : (∃ v, x.get? i j = some v) ↔ i < x.rows ∧ j < x.columns
  set : ∀ v, (∃ y, x.set? i j v = some y) ↔ i < x.rows ∧ j < x.columns
  read : ∀ v, x.get? i j = some v → ∃ row, x.row? i = some row ∧ row[j]? = some v
  written : ∀ v y, x.set? i j v = some y → x.Updated y i j v

/-- An access to row `i` succeeds exactly if the matrix has this row, and reads its places. -/
structure RowChecked (x : Matrix α) (i : Nat) : Prop where
  row : (∃ row, x.row? i = some row) ↔ i < x.rows
  read : ∀ row, x.row? i = some row →
    row.length = x.columns ∧ ∀ j < x.columns, row[j]? = x.get? i j

/-- An access in row `i` reads and writes the element at a place of a later row. -/
def Strays (x : Matrix α) (i j : Nat) : Prop :=
  ∃ i' j', i < i' ∧ i' < x.rows ∧ j' < x.columns ∧ (∃ v, x.get? i j = some v) ∧
    x.get? i j = x.get? i' j' ∧ ∀ v, x.set? i j v = x.set? i' j' v

/-! ## Which offsets are found -/

/-- Reading looks at the offset alone. -/
theorem exists_get?_iff : (∃ v, x.get? i j = some v) ↔ x.offset i j < x.data.size := by
  simp [get?, ← Option.isSome_iff_exists]

/-- Replacing looks at the offset alone. -/
theorem exists_set?_iff (v : α) :
    (∃ y, x.set? i j v = some y) ↔ x.offset i j < x.data.size := by
  rw [set?]
  split_ifs with hoffset
  · exact iff_of_true ⟨_, rfl⟩ hoffset
  · exact iff_of_false (by simp) hoffset

theorem exists_row?_iff :
    (∃ row, x.row? i = some row) ↔ i * x.columns + x.columns ≤ x.data.size := by
  rw [row?]
  split_ifs with hend
  · exact iff_of_true ⟨_, rfl⟩ hend
  · exact iff_of_false (by simp) hend

theorem WellFormed.offset_lt_iff (h : x.WellFormed) (hj : j < x.columns) :
    x.offset i j < x.data.size ↔ i < x.rows := by
  constructor
  · intro hoffset
    by_contra hi
    have hrows : x.rows * x.columns ≤ i * x.columns := Nat.mul_le_mul_right _ (not_lt.mp hi)
    rw [h, offset] at hoffset
    omega
  · exact fun hi => h.offset_lt hi hj

theorem WellFormed.row_end_iff (h : x.WellFormed) (hcolumns : 0 < x.columns) :
    i * x.columns + x.columns ≤ x.data.size ↔ i < x.rows := by
  rw [h, ← Nat.succ_mul]
  exact Nat.mul_le_mul_right_iff hcolumns

/-! ## Accesses to elements -/

/-- The columns go on through the rows that follow. -/
theorem offset_wrap (x : Matrix α) (i j : Nat) :
    x.offset (i + j / x.columns) (j % x.columns) = x.offset i j := by
  rw [offset, offset, Nat.add_mul, Nat.add_assoc, Nat.mul_comm (j / x.columns), Nat.div_add_mod]

/-- A column beyond the row reads as a column of a later row. -/
theorem get?_wrap (x : Matrix α) (i j : Nat) :
    x.get? (i + j / x.columns) (j % x.columns) = x.get? i j := by
  rw [get?, offset_wrap, get?]

/-- A column beyond the row is replaced as a column of a later row. -/
theorem set?_wrap (x : Matrix α) (i j : Nat) (v : α) :
    x.set? (i + j / x.columns) (j % x.columns) v = x.set? i j v := by
  simp only [set?, offset_wrap]

/-- A column beyond the row strays wherever its offset is still within the array. -/
theorem WellFormed.strays (h : x.WellFormed) (hj : x.columns ≤ j)
    (hoffset : x.offset i j < x.data.size) : x.Strays i j := by
  have hcolumns : 0 < x.columns := by
    by_contra hnone
    rw [h, Nat.eq_zero_of_not_pos hnone, Nat.mul_zero] at hoffset
    exact Nat.not_lt_zero _ hoffset
  have hcolumn : j % x.columns < x.columns := Nat.mod_lt j hcolumns
  have hlater : 0 < j / x.columns := Nat.div_pos hj hcolumns
  refine ⟨i + j / x.columns, j % x.columns, by omega, ?_, hcolumn, exists_get?_iff.mpr hoffset,
    (x.get?_wrap i j).symm, fun v => (x.set?_wrap i j v).symm⟩
  rwa [← h.offset_lt_iff hcolumn, offset_wrap]

theorem WellFormed.placeChecked (h : x.WellFormed) (hi : i < x.rows) (hj : j < x.columns) :
    x.PlaceChecked i j := by
  refine ⟨iff_of_true (exists_get? h hi hj) ⟨hi, hj⟩, ?_, ?_, ?_⟩
  · exact fun v => iff_of_true ((exists_set? h hi hj v).imp fun _ => And.left) ⟨hi, hj⟩
  · intro v hv
    exact ⟨x.rowAt i, row?_eq h hi, (getElem?_rowAt h hi hj).trans hv⟩
  · intro v y hy
    obtain ⟨y', hy', hupdated⟩ := exists_set? h hi hj v
    cases hy.symm.trans hy'
    exact hupdated

theorem placeChecked_of_size_le (hplace : ¬(i < x.rows ∧ j < x.columns))
    (hoffset : x.data.size ≤ x.offset i j) : x.PlaceChecked i j := by
  have hget : ¬∃ v, x.get? i j = some v := fun hv => not_lt.mpr hoffset (exists_get?_iff.mp hv)
  have hset : ∀ v, ¬∃ y, x.set? i j v = some y := fun v hy =>
    not_lt.mpr hoffset ((exists_set?_iff v).mp hy)
  exact ⟨iff_of_false hget hplace, fun v => iff_of_false (hset v) hplace,
    fun v hv => absurd ⟨v, hv⟩ hget, fun v y hy => absurd ⟨y, hy⟩ (hset v)⟩

/-- An access to an element is checked if its column is, or if its offset lies past all elements. -/
theorem placeChecked_iff (h : x.WellFormed) :
    x.PlaceChecked i j ↔ j < x.columns ∨ x.data.size ≤ x.offset i j := by
  constructor
  · intro hchecked
    rcases Nat.lt_or_ge (x.offset i j) x.data.size with hoffset | hoffset
    · exact Or.inl (hchecked.get.mp (exists_get?_iff.mpr hoffset)).2
    · exact Or.inr hoffset
  · rintro (hj | hoffset)
    · rcases Nat.lt_or_ge i x.rows with hi | hi
      · exact h.placeChecked hi hj
      · refine placeChecked_of_size_le (fun hplace => not_lt.mpr hi hplace.1) ?_
        rwa [← not_lt, h.offset_lt_iff hj, not_lt]
    · exact placeChecked_of_size_le
        (fun ⟨hi, hj⟩ => not_lt.mpr hoffset (h.offset_lt hi hj)) hoffset

/-! ## Accesses to rows -/

/-- Without columns there is an empty row at every number. -/
theorem row?_of_columns_eq_zero (hcolumns : x.columns = 0) (i : Nat) : x.row? i = some [] := by
  simp [row?, hcolumns]

/-- A row is checked unless it is one that a matrix without columns does not have. -/
theorem rowChecked_iff (h : x.WellFormed) :
    x.RowChecked i ↔ 0 < x.columns ∨ i < x.rows := by
  constructor
  · intro hchecked
    rcases Nat.eq_zero_or_pos x.columns with hcolumns | hcolumns
    · exact Or.inr (hchecked.row.mp ⟨[], row?_of_columns_eq_zero hcolumns i⟩)
    · exact Or.inl hcolumns
  · intro hchecked
    have hread : ∀ row, x.row? i = some row →
        row.length = x.columns ∧ ∀ j < x.columns, row[j]? = x.get? i j := by
      intro row hrow
      rcases Nat.eq_zero_or_pos x.columns with hcolumns | hcolumns
      · rw [row?_of_columns_eq_zero hcolumns, Option.some.injEq] at hrow
        rw [← hrow, hcolumns]
        exact ⟨rfl, fun j hj => absurd hj (Nat.not_lt_zero j)⟩
      · have hi := (h.row_end_iff hcolumns).mp (exists_row?_iff.mp ⟨row, hrow⟩)
        cases (row?_eq h hi).symm.trans hrow
        exact ⟨length_rowAt h hi, fun j hj => getElem?_rowAt h hi hj⟩
    refine ⟨?_, hread⟩
    rcases hchecked with hcolumns | hi
    · rw [exists_row?_iff, h.row_end_iff hcolumns]
    · exact iff_of_true ⟨_, row?_eq h hi⟩ hi

/-! ## All accesses -/

/-- Only a single row with columns has nowhere to stray to. -/
theorem all_checked_iff (h : x.WellFormed) :
    (∀ i j, x.PlaceChecked i j ∧ x.RowChecked i) ↔ 0 < x.columns ∧ x.rows ≤ 1 := by
  constructor
  · intro hall
    have hcolumns : 0 < x.columns := by
      have hrow := (rowChecked_iff h).mp (hall x.rows 0).2
      omega
    have hplace := (placeChecked_iff h).mp (hall 0 x.columns).1
    rw [h, offset, Nat.zero_mul, Nat.zero_add] at hplace
    refine ⟨hcolumns, Nat.le_of_mul_le_mul_right ?_ hcolumns⟩
    omega
  · rintro ⟨hcolumns, hrows⟩ i j
    refine ⟨(placeChecked_iff h).mpr ?_, (rowChecked_iff h).mpr (Or.inl hcolumns)⟩
    have hsize : x.rows * x.columns ≤ 1 * x.columns := Nat.mul_le_mul_right _ hrows
    rw [h, offset]
    omega

/-- Accesses to a well-formed matrix are checked exactly if the column of an element is in range or
its offset is past all elements, and if the matrix has columns or the row is in range. Any other
access succeeds: to an element of a later row, or to a row that is not there. -/
theorem accesses_checked_iff (h : x.WellFormed) :
    (∀ i j, x.PlaceChecked i j ↔ j < x.columns ∨ x.data.size ≤ x.offset i j) ∧
    (∀ i, x.RowChecked i ↔ 0 < x.columns ∨ i < x.rows) ∧
    (∀ i j, ¬x.PlaceChecked i j → x.Strays i j) ∧
    (∀ i, ¬x.RowChecked i → x.rows ≤ i ∧ x.row? i = some []) ∧
    ((∀ i j, x.PlaceChecked i j ∧ x.RowChecked i) ↔ 0 < x.columns ∧ x.rows ≤ 1) := by
  refine ⟨fun i j => placeChecked_iff h, fun i => rowChecked_iff h, ?_, ?_, all_checked_iff h⟩
  · intro i j hunchecked
    rw [placeChecked_iff h, not_or, not_lt, not_le] at hunchecked
    exact h.strays hunchecked.1 hunchecked.2
  · intro i hunchecked
    rw [rowChecked_iff h, not_or, not_lt, Nat.le_zero, not_lt] at hunchecked
    exact ⟨hunchecked.2, row?_of_columns_eq_zero hunchecked.1 i⟩

/-- Two points with two coordinates each. -/
def square : Matrix Float32 := ⟨2, 2, #[1, 2, 3, 4]⟩

/-- A matrix of two rows and two columns. -/
theorem square_accesses_checked :
    square.PlaceChecked 0 1 ∧ square.PlaceChecked 1 2 ∧ square.RowChecked 2 ∧
      square.Strays 0 2 ∧ ¬(∀ i j, square.PlaceChecked i j ∧ square.RowChecked i) := by
  obtain ⟨hplace, hrow, hstrays, -, hall⟩ := accesses_checked_iff (x := square) rfl
  refine ⟨(hplace 0 1).mpr (by decide), (hplace 1 2).mpr (by decide), (hrow 2).mpr (by decide),
    hstrays 0 2 ?_, ?_⟩
  · rw [hplace]
    decide
  · rw [hall]
    decide

/-- After the last column of a row comes the first one of the next row, to read and to write. Of
rows without columns there are as many as one asks for. -/
theorem columns_run_over :
    square.WellFormed ∧ ¬2 < square.columns ∧ square.get? 0 2 = some 3 ∧
      square.set? 0 2 5 = some ⟨2, 2, #[1, 2, 5, 4]⟩ ∧
      (⟨2, 0, #[]⟩ : Matrix Float32).WellFormed ∧ ¬5 < (⟨2, 0, #[]⟩ : Matrix Float32).rows ∧
      (⟨2, 0, #[]⟩ : Matrix Float32).row? 5 = some [] :=
  ⟨rfl, by decide, rfl, rfl, rfl, by decide, rfl⟩

end Matrix

end NeighborSearch
