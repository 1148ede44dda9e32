import NeighborSearch.Proofs.Matrix
import NeighborSearch.SparseMatrix

/-!
# Sparse matrices and their dense form

Expanding a sparse matrix adds its entries one after another to a matrix of zeros. Every entry
changes the value at its own place only, so the dense form has at each place the sum of the entries
there: `exists_expands`. A program has to find room for the zeros first, and a dense form takes
room for all places, not only for those with an entry: `toDense?_eq`.
-/

namespace NeighborSearch

namespace SparseMatrix

/-- What a row with these entries stores in a column, in order. -/
def valuesAt (entries : List (Nat × Float32)) (column : Nat) : List Float32 :=
  (entries.filter fun e => e.1 == column).map Prod.snd

/-- The entries of a row, none if the row cannot be read. -/
def entries (x : SparseMatrix) (row : Nat) : List (Nat × Float32) := (x.row? row).getD []

/-- Every row can be read, and its entries lie in the columns of the matrix. -/
def Readable (x : SparseMatrix) : Prop :=
  ∀ i < x.rows, ∃ entries, x.row? i = some entries ∧ ∀ entry ∈ entries, entry.1 < x.columns

theorem entries_eq {x : SparseMatrix} {row : Nat} {entries : List (Nat × Float32)}
    (h : x.row? row = some entries) : x.entries row = entries := by
  rw [SparseMatrix.entries, h, Option.getD_some]

/-- An entry that shares its column with no other is all that is stored there. -/
theorem valuesAt_of_mem {entries : List (Nat × Float32)} (hdistinct : (entries.map Prod.fst).Nodup)
    {column : Nat} {v : Float32} (hv : (column, v) ∈ entries) : valuesAt entries column = [v] := by
  induction entries with
  | nil => cases hv
  | cons first rest ih =>
    rw [List.map_cons, List.nodup_cons] at hdistinct
    rcases List.mem_cons.mp hv with rfl | hrest
    · have hnone : rest.filter (fun e => e.1 == column) = [] := by
        rw [List.filter_eq_nil_iff]
        intro e he heq
        exact hdistinct.1 (List.mem_map.mpr ⟨e, he, eq_of_beq heq⟩)
      rw [valuesAt, List.filter_cons_of_pos (by simp), hnone]
      rfl
    · have hne : ¬(first.1 == column) = true := by
        intro heq
        exact hdistinct.1 (List.mem_map.mpr ⟨_, hrest, (eq_of_beq heq).symm⟩)
      rw [valuesAt, List.filter_cons, if_neg hne]
      exact ih hdistinct.2 hrest

theorem valuesAt_of_not_mem {entries : List (Nat × Float32)} {column : Nat}
    (hnone : ∀ v, (column, v) ∉ entries) : valuesAt entries column = [] := by
  rw [valuesAt, List.map_eq_nil_iff, List.filter_eq_nil_iff]
  rintro ⟨j, v⟩ he heq
  obtain rfl : j = column := eq_of_beq heq
  exact hnone v he

/-! ## Adding entries to a dense matrix -/

/-- `after` is `before` with these entries added to its rows, one after another. -/
structure Accumulated (before after : Matrix Float32) (added : Nat → List (Nat × Float32)) :
    Prop where
  rows : after.rows = before.rows
  columns : after.columns = before.columns
  wellFormed : after.WellFormed
  value : ∀ i j v, j < before.columns → before.get? i j = some v →
    after.get? i j = some ((valuesAt (added i) j).foldl (· + ·) v)

section Accumulated

variable {x y z : Matrix Float32} {f g : Nat → List (Nat × Float32)}

theorem Accumulated.refl (h : x.WellFormed) : Accumulated x x fun _ => [] :=
  ⟨rfl, rfl, h, fun _ _ _ _ hv => hv⟩

theorem Accumulated.trans (hf : Accumulated x y f) (hg : Accumulated y z g) :
    Accumulated x z fun i => f i ++ g i := by
  refine ⟨hg.rows.trans hf.rows, hg.columns.trans hf.columns, hg.wellFormed, ?_⟩
  intro i j v hj hv
  have hy := hf.value i j v hj hv
  rw [hg.value i j _ (hf.columns ▸ hj) hy, valuesAt, valuesAt, valuesAt, List.filter_append,
    List.map_append, List.foldl_append]

theorem Accumulated.congr (hf : Accumulated x y f) (h : ∀ i, f i = g i) : Accumulated x y g := by
  rwa [← funext h]

/-- An entry in range can be added, and only its own place changes. -/
theorem exists_accumulate? (h : x.WellFormed) {row : Nat} (hrow : row < x.rows)
    {entry : Nat × Float32} (hcolumn : entry.1 < x.columns) :
    ∃ y, accumulate? row x entry = some y ∧
      Accumulated x y fun i => if i = row then [entry] else [] := by
  obtain ⟨before, hbefore⟩ := Matrix.exists_get? h hrow hcolumn
  obtain ⟨y, hy, hupdated⟩ := Matrix.exists_set? h hrow hcolumn (before + entry.2)
  refine ⟨y, ?_, hupdated.rows, hupdated.columns, hupdated.wellFormed, ?_⟩
  · simp only [accumulate?, hbefore, Option.bind_eq_bind, Option.bind_some, hy]
  · intro i j v hj hv
    by_cases hplace : i = row ∧ j = entry.1
    · obtain ⟨rfl, rfl⟩ := hplace
      rw [hbefore, Option.some.injEq] at hv
      rw [hupdated.here, hv]
      simp [valuesAt]
    · rw [hupdated.elsewhere i j hj hplace, hv]
      by_cases hi : i = row
      · have hne : (entry.1 == j) = false := by
          rw [beq_eq_false_iff_ne]
          rintro rfl
          exact hplace ⟨hi, rfl⟩
        simp [valuesAt, hi, hne]
      · simp [valuesAt, hi]

/-- The entries of a row can be added, and only the row changes. -/
theorem exists_foldlM_accumulate? (row : Nat) (h : x.WellFormed) (hrow : row < x.rows)
    {entries : List (Nat × Float32)} (hcolumns : ∀ entry ∈ entries, entry.1 < x.columns) :
    ∃ y, entries.foldlM (accumulate? row) x = some y ∧
      Accumulated x y fun i => if i = row then entries else [] := by
  induction entries generalizing x with
  | nil =>
    refine ⟨x, rfl, (Accumulated.refl h).congr ?_⟩
    intro i
    rw [ite_self]
  | cons entry entries ih =>
    obtain ⟨y, hy, hfirst⟩ := exists_accumulate? h hrow (hcolumns entry List.mem_cons_self)
    obtain ⟨z, hz, hrest⟩ := ih hfirst.wellFormed (hfirst.rows ▸ hrow) fun e he =>
      hfirst.columns ▸ hcolumns e (List.mem_cons_of_mem entry he)
    refine ⟨z, ?_, (hfirst.trans hrest).congr ?_⟩
    · rw [List.foldlM_cons, hy, Option.bind_eq_bind, Option.bind_some, hz]
    · intro i
      split_ifs <;> rfl

/-- The entries of so many rows can be added, each to its own row. -/
theorem exists_accumulateRows? {m : SparseMatrix} (hm : m.Readable) (count start : Nat)
    (hend : start + count ≤ m.rows) (h : x.WellFormed) (hrows : x.rows = m.rows)
    (hcolumns : x.columns = m.columns) :
    ∃ y, m.accumulateRows? count start x = some y ∧
      Accumulated x y fun i => if start ≤ i ∧ i < start + count then m.entries i else [] := by
  induction count generalizing x start with
  | zero =>
    refine ⟨x, rfl, (Accumulated.refl h).congr ?_⟩
    intro i
    rw [if_neg (by omega)]
  | succ count ih =>
    obtain ⟨entries, hentries, hin⟩ := hm start (by omega)
    obtain ⟨y, hy, hfirst⟩ := exists_foldlM_accumulate? start h (by omega)
      (hcolumns.symm ▸ hin)
    obtain ⟨z, hz, hrest⟩ := ih (start + 1) (by omega) hfirst.wellFormed
      (hfirst.rows.trans hrows) (hfirst.columns.trans hcolumns)
    refine ⟨z, ?_, (hfirst.trans hrest).congr ?_⟩
    · simp only [accumulateRows?, hentries, Option.bind_eq_bind, Option.bind_some, hy, hz]
    · intro i
      rcases Nat.lt_trichotomy i start with hi | rfl | hi
      · rw [if_neg (by omega), if_neg (by omega), if_neg (by omega), List.append_nil]
      · rw [if_pos rfl, if_neg (by omega), if_pos (by omega), entries_eq hentries,
          List.append_nil]
      · rw [if_neg (by omega), List.nil_append]
        by_cases hi' : i < start + 1 + count
        · rw [if_pos (by omega), if_pos (by omega)]
        · rw [if_neg (by omega), if_neg (by omega)]

end Accumulated

/-! ## The dense form -/

/-- The dense form if arrays had no bound. -/
def expanded? (x : SparseMatrix) : Option (Matrix Float32) :=
  x.accumulateRows? x.rows 0 (Matrix.constant x.rows x.columns 0)

/-- This matrix is the dense form, and it is found wherever its elements find room. -/
structure Expands (x : SparseMatrix) (dense : Matrix Float32) : Prop where
  expanded : x.expanded? = some dense
  toDense : FitsArray (dense.rows * dense.columns) → x.toDense? = some dense

section Dense

variable {x : SparseMatrix} {dense : Matrix Float32}

/-- Nothing but a lack of room keeps a program from the dense form. -/
theorem toDense?_eq (x : SparseMatrix) :
    x.toDense? = if FitsArray (x.rows * x.columns) then x.expanded? else none := by
  unfold toDense? Matrix.zeros?
  split_ifs with hfits
  · rw [Matrix.constant?_of_fits hfits]
    rfl
  · rw [Matrix.constant?_eq_none hfits]
    rfl

/-- A dense form that is found does not depend on the bound of arrays. -/
theorem expanded?_of_toDense? (h : x.toDense? = some dense) : x.expanded? = some dense := by
  rw [toDense?_eq] at h
  exact (Option.ite_none_right_eq_some.mp h).2

/-- A shape that finds room has a dense form. -/
theorem Expands.toDense?_eq (h : x.Expands dense) (hshape : dense.shape = (x.rows, x.columns))
    (hfits : FitsArray (x.rows * x.columns)) : x.toDense? = some dense := by
  obtain ⟨hrows, hcolumns⟩ : dense.rows = x.rows ∧ dense.columns = x.columns :=
    Prod.ext_iff.mp hshape
  refine h.toDense ?_
  rwa [hrows, hcolumns]

/-- The dense form has at each place the sum of the entries there, from left to right. -/
theorem exists_expands (hx : x.Readable) :
    ∃ dense, x.Expands dense ∧ dense.shape = (x.rows, x.columns) ∧ dense.WellFormed ∧
      ∀ i < x.rows, ∀ j < x.columns,
        dense.get? i j = some ((valuesAt (x.entries i) j).foldl (· + ·) 0) := by
  obtain ⟨dense, hdense, hadded⟩ :=
    exists_accumulateRows? hx x.rows 0 (by omega) (Matrix.constant_wellFormed 0) rfl rfl
  have hrows : dense.rows = x.rows := hadded.rows
  have hcolumns : dense.columns = x.columns := hadded.columns
  refine ⟨dense, ⟨hdense, fun hfits => ?_⟩, Prod.ext hrows hcolumns, hadded.wellFormed, ?_⟩
  · rw [hrows, hcolumns] at hfits
    rw [toDense?_eq, if_pos hfits]
    exact hdense
  · intro i hi j hj
    rw [hadded.value i j 0 hj (Matrix.get?_constant hi hj 0), if_pos (by omega)]

end Dense

end SparseMatrix

end NeighborSearch
