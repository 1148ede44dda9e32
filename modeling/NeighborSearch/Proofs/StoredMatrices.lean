import NeighborSearch.Proofs.Configurations
import NeighborSearch.Proofs.RowPartition

/-!
# Stored matrices

A document tells the shape and the elements of a matrix separately, and reading checks each of them
alone. So every shape is read together with any number of elements, while the constructors refuse
what does not fit: `stored_shapes_unchecked`. Accesses to a matrix that is read but not consistent
may find nothing within its own shape. Accesses are those of a program that checks its arithmetic,
where an offset that outgrows a word is found nowhere.
-/

namespace NeighborSearch

/-! ## What is read -/

section Reading

/-- A list can be read as a whole exactly if each of its items can. -/
theorem exists_mapM_eq_some_iff {α β : Type} {f : α → Option β} {ys : List β} :
    (∃ xs : List α, xs.mapM f = some ys) ↔ ∀ y ∈ ys, ∃ x, f x = some y := by
  constructor
  · rintro ⟨xs, hxs⟩
    induction xs generalizing ys with
    | nil =>
      cases hxs
      simp
    | cons x xs ih =>
      rw [List.mapM_cons] at hxs
      obtain ⟨y, hy, hxs⟩ := Option.bind_eq_some_iff.mp hxs
      obtain ⟨rest, hrest, hxs⟩ := Option.bind_eq_some_iff.mp hxs
      obtain rfl := Option.some.inj hxs
      exact List.forall_mem_cons.mpr ⟨⟨x, hy⟩, ih hrest⟩
  · intro hys
    induction ys with
    | nil => exact ⟨[], rfl⟩
    | cons y ys ih =>
      obtain ⟨⟨x, hx⟩, hrest⟩ := List.forall_mem_cons.mp hys
      obtain ⟨xs, hxs⟩ := ih hrest
      exact ⟨x :: xs, by rw [List.mapM_cons, hx, hxs]; rfl⟩

/-- Any natural number of 64 binary digits can be read. -/
theorem exists_nat?_iff {n : Nat} : (∃ d : Json, d.nat? = some n) ↔ n < 2 ^ 64 := by
  constructor
  · rintro ⟨d, hd⟩
    obtain ⟨k, hk, rfl⟩ := Option.map_eq_some_iff.mp hd
    cases d with
    | number numeral =>
      obtain ⟨-, hrange⟩ := Option.filter_eq_some_iff.mp hk
      rw [Bool.and_eq_true, decide_eq_true_iff, decide_eq_true_iff] at hrange
      omega
    | _ => cases hk
  · intro hn
    exact ⟨.nat n, by rw [Json.nat?_nat, if_pos hn]⟩

variable {α : Type} [StoredElement α]

/-- Any elements that can be read alone can be read together. -/
theorem exists_arrayOfJson?_iff {xs : Array α} :
    (∃ d, arrayOfJson? d = some xs) ↔ ∀ v ∈ xs, ∃ d, StoredElement.ofJson? d = some v := by
  have hitems := @exists_mapM_eq_some_iff Json α StoredElement.ofJson? xs.toList
  simp only [Array.mem_toList_iff] at hitems
  rw [← hitems]
  constructor
  · rintro ⟨d, hd⟩
    obtain ⟨ys, hys, rfl⟩ := Option.map_eq_some_iff.mp hd
    cases d with
    | array items => exact ⟨items, hys⟩
    | _ => cases hys
  · rintro ⟨items, h⟩
    refine ⟨.array items, ?_⟩
    rw [arrayOfJson?, Json.list?, h]
    rfl

theorem Matrix.ofJson?_record {data rows columns : Json} {x : Matrix α}
    (hdata : arrayOfJson? data = some x.data) (hrows : rows.nat? = some x.rows)
    (hcolumns : columns.nat? = some x.columns) :
    Matrix.ofJson? (Json.record [("data", data), ("rows", rows), ("cols", columns)]) = some x := by
  have hfields : (Json.record [("data", data), ("rows", rows), ("cols", columns)]).fields?
      ["data", "rows", "cols"] = some [some data, some rows, some columns] := by
    rw [Json.fields?_record]
    simp [Json.member?]
  simp only [Matrix.ofJson?, hfields, Option.bind_eq_bind, Option.bind_some, hdata, hrows,
    hcolumns]
  rfl

/-- A matrix is read if each of its fields can be read. -/
theorem Matrix.exists_ofJson?_iff {x : Matrix α} :
    (∃ document, Matrix.ofJson? document = some x) ↔
      x.rows < 2 ^ 64 ∧ x.columns < 2 ^ 64 ∧
        ∀ v ∈ x.data, ∃ d, StoredElement.ofJson? d = some v := by
  rw [← exists_nat?_iff, ← exists_nat?_iff, ← exists_arrayOfJson?_iff]
  constructor
  · rintro ⟨document, h⟩
    obtain ⟨fields, -, h⟩ := Option.bind_eq_some_iff.mp h
    split at h
    · obtain ⟨data, hdata, h⟩ := Option.bind_eq_some_iff.mp h
      obtain ⟨rows, hrows, h⟩ := Option.bind_eq_some_iff.mp h
      obtain ⟨columns, hcolumns, h⟩ := Option.bind_eq_some_iff.mp h
      obtain rfl := Option.some.inj h
      exact ⟨⟨_, hrows⟩, ⟨_, hcolumns⟩, ⟨_, hdata⟩⟩
    · cases h
  · rintro ⟨⟨rows, hrows⟩, ⟨columns, hcolumns⟩, ⟨data, hdata⟩⟩
    exact ⟨_, Matrix.ofJson?_record hdata hrows hcolumns⟩

theorem SparseMatrix.ofJson?_record {rows columns offsets indices values : Json} {x : SparseMatrix}
    (hrows : rows.nat? = some x.rows) (hcolumns : columns.nat? = some x.columns)
    (hoffsets : arrayOfJson? offsets = some x.offsets)
    (hindices : arrayOfJson? indices = some x.indices)
    (hvalues : arrayOfJson? values = some x.values) :
    SparseMatrix.ofJson? (Json.record [("n_rows", rows), ("n_cols", columns), ("indptr", offsets),
      ("indices", indices), ("data", values)]) = some x := by
  have hfields : (Json.record [("n_rows", rows), ("n_cols", columns), ("indptr", offsets),
      ("indices", indices), ("data", values)]).fields?
        ["n_rows", "n_cols", "indptr", "indices", "data"]
      = some [some rows, some columns, some offsets, some indices, some values] := by
    rw [Json.fields?_record]
    simp [Json.member?]
  simp only [SparseMatrix.ofJson?, hfields, Option.bind_eq_bind, Option.bind_some, hrows,
    hcolumns, hoffsets, hindices, hvalues]
  rfl

/-- A sparse matrix is read if each of its fields can be read. -/
theorem SparseMatrix.exists_ofJson?_iff {x : SparseMatrix} :
    (∃ document, SparseMatrix.ofJson? document = some x) ↔
      x.rows < 2 ^ 64 ∧ x.columns < 2 ^ 64 ∧ (∀ n ∈ x.offsets, n < 2 ^ 64) ∧
        (∀ n ∈ x.indices, n < 2 ^ 64) ∧ ∀ v ∈ x.values, ∃ d : Json, d.float32? = some v := by
  have hnats : ∀ ns : Array Nat, (∃ d, arrayOfJson? d = some ns) ↔ ∀ n ∈ ns, n < 2 ^ 64 := by
    intro ns
    rw [exists_arrayOfJson?_iff]
    exact forall₂_congr fun n _ => exists_nat?_iff
  have hfloats := @exists_arrayOfJson?_iff Float32 _ x.values
  change _ ↔ ∀ v ∈ x.values, ∃ d : Json, d.float32? = some v at hfloats
  rw [← exists_nat?_iff, ← exists_nat?_iff, ← hnats, ← hnats, ← hfloats]
  clear hnats hfloats
  constructor
  · rintro ⟨document, h⟩
    obtain ⟨fields, -, h⟩ := Option.bind_eq_some_iff.mp h
    split at h
    · obtain ⟨rows, hrows, h⟩ := Option.bind_eq_some_iff.mp h
      obtain ⟨columns, hcolumns, h⟩ := Option.bind_eq_some_iff.mp h
      obtain ⟨offsets, hoffsets, h⟩ := Option.bind_eq_some_iff.mp h
      obtain ⟨indices, hindices, h⟩ := Option.bind_eq_some_iff.mp h
      obtain ⟨values, hvalues, h⟩ := Option.bind_eq_some_iff.mp h
      obtain rfl := Option.some.inj h
      exact ⟨⟨_, hrows⟩, ⟨_, hcolumns⟩, ⟨_, hoffsets⟩, ⟨_, hindices⟩, ⟨_, hvalues⟩⟩
    · cases h
  · rintro ⟨⟨rows, hrows⟩, ⟨columns, hcolumns⟩, ⟨offsets, hoffsets⟩, ⟨indices, hindices⟩,
      ⟨values, hvalues⟩⟩
    exact ⟨_, SparseMatrix.ofJson?_record hrows hcolumns hoffsets hindices hvalues⟩

end Reading

/-! ## Accesses to matrices -/

namespace Matrix

variable {α : Type} {x : Matrix α}

/-- Every access within the shape finds its elements. -/
structure Accessible (x : Matrix α) : Prop where
  get : ∀ i < x.rows, ∀ j < x.columns, ∃ v, x.get? i j = some v
  set : ∀ i < x.rows, ∀ j < x.columns, ∀ v, ∃ y, x.set? i j v = some y
  row : ∀ i < x.rows, ∃ row, x.row? i = some row
  rows : ∃ rows, x.rows? = some rows

/-- The constructor takes as many elements as the shape has places. If the number of places outgrows
a word and the program goes on, it also takes as many as the word says that is left of it. -/
theorem exists_ofArray_iff (overflow : Overflow) :
    (∃ y, ofArray x.rows x.columns x.data overflow = .ok y) ↔ x.WellFormed ∨
      overflow = .wraps ∧ 2 ^ 64 ≤ x.rows * x.columns ∧
        x.data.size = x.rows * x.columns % 2 ^ 64 := by
  by_cases hwell : x.WellFormed
  · exact iff_of_true ⟨x, hwell.ofArray_eq overflow⟩ (Or.inl hwell)
  rw [or_iff_right hwell]
  rcases Nat.lt_or_ge (x.rows * x.columns) (2 ^ 64) with hword | hmany
  · rw [ofArray, overflow.sizeFor?_of_lt hword, orOutOfBounds_some, ok_bind]
    refine iff_of_false ?_ fun h => absurd h.2.1 hword.not_ge
    rintro ⟨y, h⟩
    split_ifs at h with hsize
    exact hwell hsize
  · cases overflow with
    | stops =>
      rw [ofArray, Overflow.sizeFor?_stops hwell hmany, orOutOfBounds_none, error_bind]
      simp
    | wraps =>
      rw [ofArray, Overflow.sizeFor?_wraps hwell hmany, orOutOfBounds_some, ok_bind]
      split_ifs with hsize
      · exact iff_of_true ⟨_, rfl⟩ ⟨rfl, hmany, hsize⟩
      · refine iff_of_false ?_ fun h => hsize h.2.2
        rintro ⟨y, h⟩
        cases h

theorem exists_rowsFrom? {count start : Nat}
    (h : ∀ i, start ≤ i → i < start + count → ∃ row, x.row? i = some row) :
    ∃ rows, x.rowsFrom? count start = some rows := by
  induction count generalizing start with
  | zero => exact ⟨[], rfl⟩
  | succ count ih =>
    obtain ⟨row, hrow⟩ := h start le_rfl (by omega)
    obtain ⟨rows, hrows⟩ := @ih (start + 1) fun i hi hlt => h i (by omega) (by omega)
    exact ⟨row :: rows, by simp only [rowsFrom?, hrow, hrows]; rfl⟩

/-- There must be enough elements for the shape. More of them do no harm. -/
theorem accessible_iff : x.Accessible ↔ x.rows * x.columns ≤ x.data.size := by
  constructor
  · intro h
    rcases Nat.eq_zero_or_pos x.rows with hrows | hrows
    · rw [hrows, Nat.zero_mul]
      exact Nat.zero_le _
    · obtain ⟨row, hrow⟩ := h.row (x.rows - 1) (by omega)
      obtain ⟨hend, -⟩ := Option.ite_none_right_eq_some.mp hrow
      rwa [← Nat.succ_mul, Nat.succ_eq_add_one, Nat.sub_add_cancel hrows] at hend
  · intro h
    have hend : ∀ i < x.rows, i * x.columns + x.columns ≤ x.data.size := by
      intro i hi
      rw [← Nat.succ_mul]
      exact (Nat.mul_le_mul_right _ hi).trans h
    have hoffset : ∀ i < x.rows, ∀ j < x.columns, x.offset i j < x.data.size := by
      intro i hi j hj
      have := hend i hi
      unfold offset
      omega
    have hrow : ∀ i < x.rows, ∃ row, x.row? i = some row := fun i hi => ⟨_, if_pos (hend i hi)⟩
    exact ⟨fun i hi j hj => ⟨_, Array.getElem?_eq_getElem (hoffset i hi j hj)⟩,
      fun i hi j hj v => ⟨_, dif_pos (hoffset i hi j hj)⟩, hrow,
      exists_rowsFrom? fun i _ hi => hrow i (by omega)⟩

end Matrix

/-! ## Accesses to sparse matrices -/

namespace SparseMatrix

variable {x : SparseMatrix}

/-- Every access within the shape finds its elements. -/
structure Accessible (x : SparseMatrix) : Prop where
  row : ∀ i < x.rows, ∃ entries, x.row? i = some entries
  get : ∀ i < x.rows, ∀ j < x.columns, ∃ v, x.get? i j = some v
  dense : ∃ dense, x.toDense? = some dense

/-! ### The dense form of any sparse matrix -/

section Dense

variable {dense y : Matrix Float32} {row : Nat}

/-- Every row can be read, and every entry of it has a place in the dense form, if only in another
row. -/
def Placed (x : SparseMatrix) : Prop :=
  ∀ i < x.rows, ∃ entries, x.row? i = some entries ∧
    ∀ entry ∈ entries, i * x.columns + entry.1 < x.rows * x.columns

/-- The same offsets stand for the same places. -/
def SamePlaces (dense y : Matrix Float32) : Prop :=
  y.columns = dense.columns ∧ y.data.size = dense.data.size

theorem SamePlaces.offset_lt_iff (h : SamePlaces dense y) {i j : Nat} :
    y.offset i j < y.data.size ↔ dense.offset i j < dense.data.size := by
  rw [Matrix.offset, Matrix.offset, h.1, h.2]

/-- Adding an entry keeps all places. -/
theorem samePlaces_of_accumulate? {entry : Nat × Float32}
    (h : accumulate? row dense entry = some y) :
    dense.offset row entry.1 < dense.data.size ∧ SamePlaces dense y := by
  obtain ⟨before, -, h⟩ := Option.bind_eq_some_iff.mp h
  obtain ⟨hlt, h⟩ := Option.dite_none_right_eq_some.mp h
  obtain rfl := Option.some.inj h
  exact ⟨hlt, rfl, Array.size_set hlt⟩

/-- An entry can be added exactly if its offset lies within the array. -/
theorem exists_accumulate?_iff {entry : Nat × Float32} :
    (∃ y, accumulate? row dense entry = some y) ↔ dense.offset row entry.1 < dense.data.size := by
  refine ⟨fun ⟨y, h⟩ => (samePlaces_of_accumulate? h).1, fun hlt => ?_⟩
  have hget : dense.get? row entry.1 = some dense.data[dense.offset row entry.1] :=
    Array.getElem?_eq_getElem hlt
  simp only [accumulate?, hget, Option.bind_eq_bind, Option.bind_some]
  exact ⟨_, dif_pos hlt⟩

theorem samePlaces_of_foldlM {entries : List (Nat × Float32)}
    (h : entries.foldlM (accumulate? row) dense = some y) : SamePlaces dense y := by
  induction entries generalizing dense with
  | nil =>
    obtain rfl := Option.some.inj h
    exact ⟨rfl, rfl⟩
  | cons entry entries ih =>
    rw [List.foldlM_cons] at h
    obtain ⟨first, hfirst, h⟩ := Option.bind_eq_some_iff.mp h
    obtain ⟨hcolumns, hsize⟩ := (samePlaces_of_accumulate? hfirst).2
    exact ⟨(ih h).1.trans hcolumns, (ih h).2.trans hsize⟩

/-- Entries can be added exactly if each of them alone can. -/
theorem exists_foldlM_iff {entries : List (Nat × Float32)} :
    (∃ y, entries.foldlM (accumulate? row) dense = some y) ↔
      ∀ entry ∈ entries, dense.offset row entry.1 < dense.data.size := by
  induction entries generalizing dense with
  | nil => exact ⟨fun _ => by simp, fun _ => ⟨dense, rfl⟩⟩
  | cons entry entries ih =>
    rw [List.forall_mem_cons, List.foldlM_cons]
    constructor
    · rintro ⟨y, h⟩
      obtain ⟨first, hfirst, h⟩ := Option.bind_eq_some_iff.mp h
      obtain ⟨hlt, hplaces⟩ := samePlaces_of_accumulate? hfirst
      exact ⟨hlt, fun e he => hplaces.offset_lt_iff.mp (ih.mp ⟨y, h⟩ e he)⟩
    · rintro ⟨hlt, hrest⟩
      obtain ⟨first, hfirst⟩ := exists_accumulate?_iff.mpr hlt
      have hplaces := (samePlaces_of_accumulate? hfirst).2
      rw [hfirst]
      exact ih.mpr fun e he => hplaces.offset_lt_iff.mpr (hrest e he)

/-- Rows can be added exactly if they can be read and each entry can be added. -/
theorem exists_accumulateRows?_iff {count start : Nat} :
    (∃ y, x.accumulateRows? count start dense = some y) ↔
      ∀ i, start ≤ i → i < start + count → ∃ entries, x.row? i = some entries ∧
        ∀ entry ∈ entries, dense.offset i entry.1 < dense.data.size := by
  induction count generalizing start dense with
  | zero => exact ⟨fun _ i hi hlt => absurd hlt (by omega), fun _ => ⟨dense, rfl⟩⟩
  | succ count ih =>
    constructor
    · rintro ⟨y, h⟩ i hi hlt
      obtain ⟨entries, hentries, h⟩ := Option.bind_eq_some_iff.mp h
      obtain ⟨added, hadded, h⟩ := Option.bind_eq_some_iff.mp h
      rcases hi.eq_or_lt with rfl | hi
      · exact ⟨entries, hentries, exists_foldlM_iff.mp ⟨added, hadded⟩⟩
      · obtain ⟨later, hlater, hin⟩ := ih.mp ⟨y, h⟩ i hi (by omega)
        exact ⟨later, hlater, fun e he => (samePlaces_of_foldlM hadded).offset_lt_iff.mp (hin e he)⟩
    · intro h
      obtain ⟨entries, hentries, hin⟩ := h start le_rfl (by omega)
      obtain ⟨added, hadded⟩ := exists_foldlM_iff.mpr hin
      have hplaces := samePlaces_of_foldlM hadded
      obtain ⟨y, hy⟩ := (@ih added (start + 1)).mpr fun i hi hlt => by
        obtain ⟨later, hlater, hin⟩ := h i (by omega) (by omega)
        exact ⟨later, hlater, fun e he => hplaces.offset_lt_iff.mpr (hin e he)⟩
      refine ⟨y, ?_⟩
      simp only [accumulateRows?, hentries, hadded, Option.bind_eq_bind, Option.bind_some, hy]

/-- A dense form needs a place for every entry, and room. -/
theorem exists_toDense?_iff :
    (∃ dense, x.toDense? = some dense) ↔ x.Placed ∧ FitsArray (x.rows * x.columns) := by
  have hsize : (Matrix.constant x.rows x.columns (0 : Float32)).data.size = x.rows * x.columns :=
    Matrix.constant_wellFormed 0
  have hexpanded : (∃ dense, x.expanded? = some dense) ↔ x.Placed := by
    unfold expanded?
    rw [exists_accumulateRows?_iff]
    simp only [hsize, Nat.zero_le, Nat.zero_add, true_implies]
    rfl
  rw [← hexpanded, toDense?_eq]
  simp only [Option.ite_none_right_eq_some, exists_and_left]
  exact And.comm

/-- What the dense form needs is all that any access needs. -/
theorem accessible_iff : x.Accessible ↔ x.Placed ∧ FitsArray (x.rows * x.columns) := by
  refine ⟨fun h => exists_toDense?_iff.mp h.dense, fun h => ?_⟩
  have hrow : ∀ i < x.rows, ∃ entries, x.row? i = some entries := fun i hi =>
    (h.1 i hi).imp fun _ => And.left
  refine ⟨hrow, fun i hi j _ => ?_, exists_toDense?_iff.mpr h⟩
  obtain ⟨entries, hentries⟩ := hrow i hi
  exact ⟨_, by rw [get?, hentries, Option.map_some]⟩

/-- Entries in their columns have a place in their own row. -/
theorem Readable.placed (h : x.Readable) : x.Placed := by
  intro i hi
  obtain ⟨entries, hentries, hin⟩ := h i hi
  refine ⟨entries, hentries, fun entry hentry => ?_⟩
  have hcolumn := hin entry hentry
  have hend : (i + 1) * x.columns ≤ x.rows * x.columns := Nat.mul_le_mul_right _ hi
  rw [Nat.succ_mul] at hend
  omega

end Dense

end SparseMatrix

/-! ## Both kinds of matrices -/

/-- Any shape is read with any elements that can be read, whether or not they fit. The constructors
accept exactly what fits, and only that is sure to be found by every access: a matrix needs at least
as many elements as places, and a sparse matrix rows that can be read, entries with a place, and
room for its dense form. A program that does not check its sizes also accepts a matrix whose number
of places outgrows a word, with as many elements as are left of it. -/
theorem stored_shapes_unchecked {α : Type} [StoredElement α] (x : Matrix α) (y : SparseMatrix)
    (overflow : Overflow) :
    (((∃ document, Matrix.ofJson? document = some x) ↔
        x.rows < 2 ^ 64 ∧ x.columns < 2 ^ 64 ∧
          ∀ v ∈ x.data, ∃ d, StoredElement.ofJson? d = some v) ∧
      ((∃ z, Matrix.ofArray x.rows x.columns x.data overflow = .ok z) ↔ x.WellFormed ∨
        overflow = .wraps ∧ 2 ^ 64 ≤ x.rows * x.columns ∧
          x.data.size = x.rows * x.columns % 2 ^ 64) ∧
      (x.WellFormed → x.Accessible) ∧
      (x.Accessible ↔ x.rows * x.columns ≤ x.data.size)) ∧
    (((∃ document, SparseMatrix.ofJson? document = some y) ↔
        y.rows < 2 ^ 64 ∧ y.columns < 2 ^ 64 ∧ (∀ n ∈ y.offsets, n < 2 ^ 64) ∧
          (∀ n ∈ y.indices, n < 2 ^ 64) ∧ ∀ v ∈ y.values, ∃ d : Json, d.float32? = some v) ∧
      (y.rows < 2 ^ 64 →
        ((∃ z, SparseMatrix.ofParts y.rows y.columns y.offsets y.indices y.values overflow = .ok z) ↔
          y.Consistent)) ∧
      (y.Consistent → y.Readable ∧ (FitsArray (y.rows * y.columns) → y.Accessible)) ∧
      (y.Accessible ↔ y.Placed ∧ FitsArray (y.rows * y.columns))) := by
  refine ⟨⟨Matrix.exists_ofJson?_iff, Matrix.exists_ofArray_iff overflow, fun h => ?_,
    Matrix.accessible_iff⟩, ⟨SparseMatrix.exists_ofJson?_iff, fun hrows =>
    SparseMatrix.exists_ofParts_iff fun _ => hrows, fun h => ⟨h.readable, fun hfits => ?_⟩,
    SparseMatrix.accessible_iff⟩⟩
  · exact Matrix.accessible_iff.mpr h.ge
  · exact SparseMatrix.accessible_iff.mpr ⟨h.readable.placed, hfits⟩

/-- Matrices of one place, with one element and with none. -/
theorem unit_shapes_unchecked :
    (⟨1, 1, #[1]⟩ : Matrix Float32).Accessible ∧
      (⟨1, 1, #[0, 1], #[0], #[1]⟩ : SparseMatrix).Accessible ∧
      (∃ document, Matrix.ofJson? document = some (⟨1, 1, #[]⟩ : Matrix Float32)) ∧
      ¬ (⟨1, 1, #[]⟩ : Matrix Float32).Accessible ∧
      (∃ document, SparseMatrix.ofJson? document = some ⟨1, 1, #[], #[], #[]⟩) ∧
      ¬ (⟨1, 1, #[], #[], #[]⟩ : SparseMatrix).Consistent := by
  obtain ⟨hmatrix, hsparse⟩ := stored_shapes_unchecked (⟨1, 1, #[1]⟩ : Matrix Float32)
    ⟨1, 1, #[0, 1], #[0], #[1]⟩ .stops
  obtain ⟨hmatrix', hsparse'⟩ := stored_shapes_unchecked (⟨1, 1, #[]⟩ : Matrix Float32)
    ⟨1, 1, #[], #[], #[]⟩ .stops
  have hconsistent : (⟨1, 1, #[0, 1], #[0], #[1]⟩ : SparseMatrix).Consistent :=
    ⟨rfl, rfl, rfl, rfl, by decide, by decide⟩
  refine ⟨hmatrix.2.2.1 rfl, (hsparse.2.2.1 hconsistent).2 (by decide), ?_, ?_, ?_, ?_⟩
  · exact hmatrix'.1.mpr ⟨by decide, by decide, by simp⟩
  · rw [hmatrix'.2.2.2]
    decide
  · exact hsparse'.1.mpr ⟨by decide, by decide, by simp, by simp, by simp⟩
  · exact fun h => absurd h.offsets_size (by decide)

/-- Documents without elements are read as matrices that have a place. -/
theorem empty_documents_accepted :
    (Json.parse "\x7b\"data\":[],\"rows\":1,\"cols\":1\x7d").bind Matrix.ofJson?
        = some (⟨1, 1, #[]⟩ : Matrix Float32) ∧
      Matrix.ofArray 1 1 (#[] : Array Float32) = .error Matrix.dataLengthError ∧
      (⟨1, 1, #[]⟩ : Matrix Float32).get? 0 0 = none ∧
      (⟨1, 1, #[]⟩ : Matrix Float32).rows? = none ∧
      (Json.parse ("\x7b\"n_rows\":1,\"n_cols\":1,\"indptr\":[],\"indices\":[],"
        ++ "\"data\":[]\x7d")).bind SparseMatrix.ofJson? = some ⟨1, 1, #[], #[], #[]⟩ ∧
      SparseMatrix.ofParts 1 1 #[] #[] #[] = .error (.sizeMismatch "indptr length" 2 0) ∧
      (⟨1, 1, #[], #[], #[]⟩ : SparseMatrix).get? 0 0 = none ∧
      (⟨1, 1, #[], #[], #[]⟩ : SparseMatrix).toDense? = none := by
  have hone : (Json.nat 1).nat? = some 1 := Json.nat?_nat 1
  have hnone : Json.Proper (.array []) := .array (by simp)
  refine ⟨?_, rfl, rfl, rfl, ?_, rfl, rfl, rfl⟩
  · have hproper : (Matrix.toJson (⟨1, 1, #[]⟩ : Matrix Float32)).Proper :=
      Json.proper_record (by simp [arrayToJson, Json.list, hnone, Json.proper_nat])
    have htext : Json.render (Matrix.toJson (⟨1, 1, #[]⟩ : Matrix Float32))
        = "\x7b\"data\":[],\"rows\":1,\"cols\":1\x7d" := by decide +kernel
    rw [← htext, Json.parse_render hproper]
    exact Matrix.ofJson?_record rfl hone hone
  · have hproper : (SparseMatrix.toJson ⟨1, 1, #[], #[], #[]⟩).Proper :=
      Json.proper_record (by simp [arrayToJson, Json.list, hnone, Json.proper_nat])
    have htext : Json.render (SparseMatrix.toJson ⟨1, 1, #[], #[], #[]⟩)
        = "\x7b\"n_rows\":1,\"n_cols\":1,\"indptr\":[],\"indices\":[],"
          ++ "\"data\":[]\x7d" := by decide +kernel
    rw [← htext, Json.parse_render hproper]
    exact SparseMatrix.ofJson?_record hone hone rfl rfl rfl

end NeighborSearch
