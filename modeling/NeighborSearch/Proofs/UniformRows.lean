import NeighborSearch.Proofs.RowPartition

/-!
# Rows of equal length

Entries can be cut into rows of equal length. As many entries as fill the rows fit together with the
shape if there is a value for each and their columns are in range. Laying out given rows one after
another and cutting the entries again gives these rows.
-/

namespace NeighborSearch

namespace SparseMatrix

/-- The sparse matrix that cuts its entries into rows of `k`. -/
def uniform (rows columns k : Nat) (indices : Array Nat) (values : Array Float32) : SparseMatrix :=
  ⟨rows, columns, (Array.range (rows + 1)).map fun i => i * k, indices, values⟩

section Uniform

variable {rows columns k : Nat} {indices : Array Nat} {values : Array Float32}

theorem getElem?_offsets_uniform {i : Nat} (hi : i ≤ rows) :
    (uniform rows columns k indices values).offsets[i]? = some (i * k) := by
  simp [uniform, Nat.lt_succ_of_le hi]

/-- Rows of equal length fit together exactly if every entry has a value and a column. -/
theorem consistent_uniform_iff (hsize : indices.size = rows * k) :
    (uniform rows columns k indices values).Consistent ↔
      indices.size = values.size ∧ ∀ c ∈ indices, c < columns := by
  refine ⟨fun h => ⟨h.values_size, h.columns_lt⟩, fun ⟨hvalues, hcolumns⟩ => ?_⟩
  have hoffsets : (uniform rows columns k indices values).offsets.toList
      = (List.range (rows + 1)).map fun i => i * k := by
    rw [uniform, Array.toList_map, Array.toList_range]
  refine ⟨by simp [uniform], hvalues, ?_, ?_, ?_, hcolumns⟩
  · simp [hoffsets, List.range_succ_eq_map]
  · simp [List.range_succ, uniform, hsize]
  · rw [hoffsets, List.pairwise_map]
    exact List.pairwise_lt_range.imp fun hab => Nat.mul_le_mul_right k hab.le

/-- Only rows without entries are lost. -/
theorem ofUniformRows_eq_ok_iff (hsize : indices.size = rows * k) {y : SparseMatrix} :
    ofUniformRows columns k indices values = .ok y ↔
      (indices.size = values.size ∧ ∀ c ∈ indices, c < columns) ∧
        y = uniform (if k = 0 then 0 else rows) columns k indices values := by
  have hrows : (if k = 0 then 0 else indices.size / k) = if k = 0 then 0 else rows := by
    split_ifs with hk
    · rfl
    · rw [hsize, Nat.mul_div_cancel _ (Nat.pos_of_ne_zero hk)]
  have hcut : indices.size = (if k = 0 then 0 else rows) * k := by
    split_ifs with hk
    · rw [hsize, hk, Nat.mul_zero, Nat.mul_zero]
    · exact hsize
  rw [← consistent_uniform_iff hcut, ← @ofParts_eq_ok_iff _ .stops nofun]
  unfold ofUniformRows
  rw [hrows]
  rfl

/-- A row is a slice of the entries. -/
theorem row?_uniform (hsize : indices.size = rows * k) (hvalues : values.size = rows * k) {i : Nat}
    (hi : i < rows) :
    (uniform rows columns k indices values).row? i
      = some ((indices.extract (i * k) (i * k + k)).toList.zip
          (values.extract (i * k) (i * k + k)).toList) := by
  have hend : i * k + k ≤ rows * k := by
    rw [← Nat.succ_mul]
    exact Nat.mul_le_mul_right k hi
  unfold row?
  simp only [getElem?_offsets_uniform hi.le, getElem?_offsets_uniform (Nat.succ_le_of_lt hi),
    Nat.succ_mul, Option.bind_eq_bind, Option.bind_some]
  exact if_pos ⟨Nat.le_add_right _ k, hend.trans_eq hsize.symm, hend.trans_eq hvalues.symm⟩

end Uniform

/-! ## Laying out rows -/

/-- The sparse matrix with the given rows, each of `k` entries. -/
def ofTable (columns k : Nat) (table : List (List (Nat × Float32))) : SparseMatrix :=
  ⟨table.length, columns, (Array.range (table.length + 1)).map fun i => i * k,
    (table.map (·.map Prod.fst)).flatten.toArray, (table.map (·.map Prod.snd)).flatten.toArray⟩

section Table

variable {columns k : Nat} {table : List (List (Nat × Float32))}

theorem size_flatten_map (hrows : ∀ row ∈ table, row.length = k) {β : Type}
    (f : Nat × Float32 → β) : (table.map (·.map f)).flatten.toArray.size = table.length * k := by
  rw [List.size_toArray, Matrix.length_flatten_eq (Matrix.length_of_mem_map f hrows),
    List.length_map]

theorem lt_of_mem_flatten (hcolumns : ∀ row ∈ table, ∀ entry ∈ row, entry.1 < columns) :
    ∀ c ∈ (table.map (·.map Prod.fst)).flatten.toArray, c < columns := by
  intro c hc
  obtain ⟨js, hjs, hc⟩ := List.mem_flatten.mp (List.mem_toArray.mp hc)
  obtain ⟨row, hrow, rfl⟩ := List.mem_map.mp hjs
  obtain ⟨entry, hentry, rfl⟩ := List.mem_map.mp hc
  exact hcolumns row hrow entry hentry

/-- Rows with entries that are laid out and cut again are the rows as they were. -/
theorem ofUniformRows_eq (hpos : 1 ≤ k) (hrows : ∀ row ∈ table, row.length = k)
    (hcolumns : ∀ row ∈ table, ∀ entry ∈ row, entry.1 < columns) :
    ofUniformRows columns k (table.map (·.map Prod.fst)).flatten.toArray
      (table.map (·.map Prod.snd)).flatten.toArray = .ok (ofTable columns k table) := by
  refine (ofUniformRows_eq_ok_iff (size_flatten_map hrows Prod.fst)).mpr ⟨⟨?_, ?_⟩, ?_⟩
  · rw [size_flatten_map hrows, size_flatten_map hrows]
  · exact lt_of_mem_flatten hcolumns
  · rw [if_neg (by omega)]
    rfl

theorem row?_ofTable (hrows : ∀ row ∈ table, row.length = k) {i : Nat}
    {row : List (Nat × Float32)} (hi : table[i]? = some row) :
    (ofTable columns k table).row? i = some row := by
  have hlt : i < table.length := (List.getElem?_eq_some_iff.mp hi).1
  have hpart : ∀ {β : Type} (f : Nat × Float32 → β),
      ((table.map (·.map f)).flatten.toArray.extract (i * k) (i * k + k)).toList = row.map f := by
    intro β f
    have hmap : (table.map (·.map f))[i]? = some (row.map f) := by
      rw [List.getElem?_map, hi, Option.map_some]
    exact Matrix.rowAt_layout (Matrix.length_of_mem_map f hrows) hmap
  have hrow : (ofTable columns k table).row? i = _ :=
    row?_uniform (size_flatten_map hrows Prod.fst) (size_flatten_map hrows Prod.snd) hlt
  rw [hrow, hpart, hpart, List.zip_map', List.map_id']

theorem readable_ofTable (hrows : ∀ row ∈ table, row.length = k)
    (hcolumns : ∀ row ∈ table, ∀ entry ∈ row, entry.1 < columns) :
    (ofTable columns k table).Readable := by
  have hconsistent := (consistent_uniform_iff (size_flatten_map hrows Prod.fst)).mpr
    ⟨(size_flatten_map hrows Prod.fst).trans (size_flatten_map hrows Prod.snd).symm,
      lt_of_mem_flatten hcolumns⟩
  exact hconsistent.readable

end Table

end SparseMatrix

end NeighborSearch
