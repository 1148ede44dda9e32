import NeighborSearch.Proofs.Computations
import NeighborSearch.Proofs.Sparse

/-!
# Rows as parts of the entries

A sparse matrix is given by its shape, its offsets and its entries, and the constructor takes exactly
those parts that fit together. The offsets then cut the entries into rows: every row can be read, and
the rows one after another are all entries in the order in which they are stored,
`parts_partition`. What is wrong with other parts is told by the kind of the error, except where
there are so many rows that the number of their offsets is no machine word any more:
`offsets_outgrow_word`.
-/

namespace NeighborSearch

namespace SparseMatrix

variable {x : SparseMatrix}

/-! ## Parts that fit together -/

/-- Neighboring offsets are enough to look at. -/
theorem pairwise_iff_zip_tail {offsets : List Nat} :
    offsets.Pairwise (· ≤ ·) ↔ ∀ pair ∈ offsets.zip offsets.tail, pair.1 ≤ pair.2 := by
  rw [← List.isChain_iff_pairwise]
  induction offsets with
  | nil => simp
  | cons a rest ih =>
    cases rest with
    | nil => simp
    | cons b rest =>
      rw [List.isChain_cons_cons, ih, List.tail_cons, List.tail_cons, List.zip_cons_cons,
        List.forall_mem_cons]

/-- The check looks at neighbors, but all offsets are then in order. -/
theorem offsetsCover_iff {offsets : List Nat} {entries : Nat} :
    offsetsCover offsets entries = true ↔ offsets.head? = some 0 ∧
      offsets.getLast? = some entries ∧ offsets.Pairwise (· ≤ ·) := by
  rw [offsetsCover, Bool.and_eq_true, Bool.and_eq_true, beq_iff_eq, beq_iff_eq, List.all_eq_true,
    and_assoc, pairwise_iff_zip_tail]
  simp only [decide_eq_true_eq]

/-- There is one offset more than there are rows, and every entry has a value. -/
structure Sized (x : SparseMatrix) : Prop where
  offsets_size : x.offsets.size = x.rows + 1
  values_size : x.indices.size = x.values.size

/-- The parts fit together: the offsets rise from zero to the number of entries, one more than there
are rows, and every entry has a value and lies in a column of the matrix. -/
structure Consistent (x : SparseMatrix) : Prop where
  offsets_size : x.offsets.size = x.rows + 1
  values_size : x.indices.size = x.values.size
  first : x.offsets.toList.head? = some 0
  last : x.offsets.toList.getLast? = some x.indices.size
  ordered : x.offsets.toList.Pairwise (· ≤ ·)
  columns_lt : ∀ c ∈ x.indices, c < x.columns

theorem Consistent.sized (h : x.Consistent) : x.Sized := ⟨h.offsets_size, h.values_size⟩

/-! ## Building a sparse matrix -/

section Building

variable {overflow : Overflow}

/-- Where the number of offsets can be computed, parts of the wrong size are refused for their
sizes, other parts that do not fit as unusable, and all that fit are taken. -/
theorem ofParts_cases
    (hsize : overflow.sizeFor? x.offsets.size (x.rows + 1) = some (x.rows + 1)) :
    (x.Consistent ∧ ofParts x.rows x.columns x.offsets x.indices x.values overflow = .ok x) ∨
    (¬x.Sized ∧ ∃ expected actual, ofParts x.rows x.columns x.offsets x.indices x.values overflow
      = .error (.dimensionMismatch expected actual)) ∨
    (x.Sized ∧ ¬x.Consistent ∧ ∃ message,
      ofParts x.rows x.columns x.offsets x.indices x.values overflow
        = .error (.invalidInput message)) := by
  rw [ofParts, hsize, orOutOfBounds_some, ok_bind]
  split_ifs with hoffsets hvalues hcover
  · exact Or.inr (Or.inl ⟨fun h => hoffsets h.offsets_size, _, _, rfl⟩)
  · exact Or.inr (Or.inl ⟨fun h => hvalues h.values_size, _, _, rfl⟩)
  · refine Or.inr (Or.inr ⟨⟨not_not.mp hoffsets, not_not.mp hvalues⟩, fun h => ?_, _, rfl⟩)
    rw [offsetsCover_iff.mpr ⟨h.first, h.last, h.ordered⟩] at hcover
    cases hcover
  · rw [Bool.not_eq_true, Bool.not_eq_false', offsetsCover_iff] at hcover
    split
    · next c hfind =>
      refine Or.inr (Or.inr ⟨⟨not_not.mp hoffsets, not_not.mp hvalues⟩, fun h => ?_, _, rfl⟩)
      have hc := h.columns_lt c (Array.mem_of_find?_eq_some hfind)
      have hle : x.columns ≤ c := by simpa using Array.find?_some hfind
      omega
    · next hfind =>
      rw [Array.find?_eq_none] at hfind
      exact Or.inl ⟨⟨not_not.mp hoffsets, not_not.mp hvalues, hcover.1, hcover.2.1, hcover.2.2,
        fun c hc => by simpa using hfind c hc⟩, rfl⟩

/-- So many rows need one offset more than a word counts. A program that checks this stops. -/
theorem ofParts_stops (hrows : 2 ^ 64 ≤ x.rows + 1) (hoffsets : x.offsets.size ≠ x.rows + 1) :
    ofParts x.rows x.columns x.offsets x.indices x.values .stops = .error .outOfBounds := by
  rw [ofParts, Overflow.sizeFor?_stops hoffsets hrows, orOutOfBounds_none, error_bind]

/-- A program that does not check it finds that these rows need no offset, and misses the first one
only where it looks for the zero. -/
theorem ofParts_wraps (hrows : x.rows + 1 = 2 ^ 64) (hoffsets : x.offsets.size ≠ x.rows + 1) :
    ofParts x.rows x.columns x.offsets x.indices x.values .wraps =
      if x.offsets.size ≠ 0 then .error (.sizeMismatch "indptr length" 0 x.offsets.size)
      else if x.indices.size ≠ x.values.size then
        .error (.sizeMismatch "data length" x.indices.size x.values.size)
      else .error (.invalidInput "indptr must start at 0, be non-decreasing and end at nnz") := by
  rw [ofParts, Overflow.sizeFor?_wraps hoffsets hrows.ge, hrows, Nat.mod_self,
    orOutOfBounds_some, ok_bind]
  split_ifs with hsome hvalues hcover
  · rfl
  · rfl
  · rfl
  · rw [Bool.not_eq_true, Bool.not_eq_false', offsetsCover_iff] at hcover
    rw [Array.eq_empty_of_size_eq_zero (not_not.mp hsome)] at hcover
    cases hcover.1

/-- The number of offsets that the rows need can be computed, if there are not too many rows or if
there are so many offsets already. -/
theorem sizeFor?_offsets (x : SparseMatrix) (overflow : Overflow) :
    overflow.sizeFor? x.offsets.size (x.rows + 1) = some (x.rows + 1) ∨
      2 ^ 64 ≤ x.rows + 1 ∧ x.offsets.size ≠ x.rows + 1 := by
  by_cases hoffsets : x.offsets.size = x.rows + 1
  · rw [hoffsets]
    exact Or.inl overflow.sizeFor?_self
  · rcases Nat.lt_or_ge (x.rows + 1) (2 ^ 64) with hrows | hrows
    · exact Or.inl (overflow.sizeFor?_of_lt hrows)
    · exact Or.inr ⟨hrows, hoffsets⟩

/-- Only parts that fit together are taken, and they are taken as they are. -/
theorem ofParts_eq_ok_iff (hrows : overflow = .wraps → x.rows < 2 ^ 64) {y : SparseMatrix} :
    ofParts x.rows x.columns x.offsets x.indices x.values overflow = .ok y ↔
      x.Consistent ∧ y = x := by
  rcases sizeFor?_offsets x overflow with hsize | ⟨hmany, hoffsets⟩
  · rcases ofParts_cases hsize with ⟨hconsistent, h⟩ | ⟨hsized, _, _, h⟩ | ⟨-, hconsistent, _, h⟩
    · rw [h, Except.ok.injEq]
      exact ⟨fun hy => ⟨hconsistent, hy.symm⟩, fun hy => hy.2.symm⟩
    · rw [h]
      exact ⟨nofun, fun hy => absurd hy.1.sized hsized⟩
    · rw [h]
      exact ⟨nofun, fun hy => absurd hy.1 hconsistent⟩
  · have hconsistent : ¬x.Consistent := fun h => hoffsets h.offsets_size
    cases overflow with
    | stops =>
      rw [ofParts_stops hmany hoffsets]
      exact ⟨nofun, fun hy => absurd hy.1 hconsistent⟩
    | wraps =>
      have hlast := hrows rfl
      rw [ofParts_wraps (by omega) hoffsets]
      split_ifs <;> exact ⟨nofun, fun hy => absurd hy.1 hconsistent⟩

/-- The checked constructor takes exactly the parts that fit together. -/
theorem exists_ofParts_iff (hrows : overflow = .wraps → x.rows < 2 ^ 64) :
    (∃ y, ofParts x.rows x.columns x.offsets x.indices x.values overflow = .ok y) ↔
      x.Consistent := by
  simp only [ofParts_eq_ok_iff hrows, exists_and_left, exists_eq, and_true]

end Building

/-! ## Cutting the entries into rows -/

/-- All entries, each with its column, in the order in which they are stored. -/
def stored (x : SparseMatrix) : List (Nat × Float32) := x.indices.toList.zip x.values.toList

/-- The rows part the entries: they can all be read, each begins where its offset says, and one
after another they are the stored entries. -/
structure Partitioned (x : SparseMatrix) : Prop where
  read : ∀ i < x.rows, x.row? i = some (x.entries i)
  start : ∀ i ≤ x.rows, x.offsets[i]? = some ((List.range i).flatMap x.entries).length
  all : (List.range x.rows).flatMap x.entries = x.stored

theorem zip_extract (indices : Array Nat) (values : Array Float32) (start stop : Nat) :
    (indices.extract start stop).toList.zip (values.extract start stop).toList
      = ((indices.toList.zip values.toList).drop start).take (stop - start) := by
  simp only [Array.toList_extract, List.extract_eq_take_drop, List.zip_eq_zipWith,
    List.drop_zipWith, List.take_zipWith]

theorem Consistent.length_stored (h : x.Consistent) : x.stored.length = x.indices.size := by
  simp [stored, h.values_size]

theorem Consistent.offset_mono (h : x.Consistent) {i j a b : Nat} (hij : i ≤ j)
    (ha : x.offsets[i]? = some a) (hb : x.offsets[j]? = some b) : a ≤ b := by
  rcases hij.eq_or_lt with rfl | hlt
  · rw [ha] at hb
    exact (Option.some.inj hb).le
  · obtain ⟨hi, rfl⟩ := Array.getElem?_eq_some_iff.mp ha
    obtain ⟨hj, rfl⟩ := Array.getElem?_eq_some_iff.mp hb
    exact List.pairwise_iff_getElem.mp h.ordered i j hi hj hlt

theorem Consistent.exists_offset (h : x.Consistent) {i : Nat} (hi : i ≤ x.rows) :
    ∃ a, x.offsets[i]? = some a :=
  ⟨_, Array.getElem?_eq_getElem (h.offsets_size ▸ Nat.lt_succ_of_le hi)⟩

theorem Consistent.offset_zero (h : x.Consistent) : x.offsets[0]? = some 0 := by
  rw [← Array.getElem?_toList, ← List.head?_eq_getElem?, h.first]

theorem Consistent.offset_rows (h : x.Consistent) : x.offsets[x.rows]? = some x.indices.size := by
  rw [← h.last, List.getLast?_eq_getElem?, Array.length_toList, h.offsets_size, Nat.add_sub_cancel,
    Array.getElem?_toList]

theorem Consistent.offset_le (h : x.Consistent) {i a : Nat} (ha : x.offsets[i]? = some a) :
    a ≤ x.indices.size := by
  have hi : i < x.offsets.size := (Array.getElem?_eq_some_iff.mp ha).1
  rw [h.offsets_size] at hi
  exact h.offset_mono (Nat.le_of_lt_succ hi) ha h.offset_rows

/-- A row is what is stored between two offsets. -/
theorem Consistent.row?_eq (h : x.Consistent) {i a b : Nat} (ha : x.offsets[i]? = some a)
    (hb : x.offsets[i + 1]? = some b) : x.row? i = some ((x.stored.drop a).take (b - a)) := by
  have hab := h.offset_mono (Nat.le_succ i) ha hb
  have hend := h.offset_le hb
  simp only [row?, ha, hb, Option.bind_eq_bind, Option.bind_some]
  rw [if_pos ⟨hab, hend, h.values_size ▸ hend⟩, zip_extract, stored]

/-- There are no rows beyond the shape. -/
theorem Consistent.row?_eq_none (h : x.Consistent) {i : Nat} (hi : x.rows ≤ i) :
    x.row? i = none := by
  have hstop : x.offsets[i + 1]? = none := by
    rw [Array.getElem?_eq_none_iff, h.offsets_size]
    omega
  unfold row?
  rw [hstop]
  cases x.offsets[i]? <;> rfl

/-- The first `i` rows are what is stored before the offset of row `i`. -/
theorem Consistent.flatMap_entries (h : x.Consistent) {i a : Nat} (ha : x.offsets[i]? = some a) :
    (List.range i).flatMap x.entries = x.stored.take a := by
  -- the offset of a row is both the end of what the rows before it cover and its own beginning
  induction i generalizing a with
  | zero =>
    rw [h.offset_zero, Option.some.injEq] at ha
    rw [← ha, List.range_zero, List.flatMap_nil, List.take_zero]
  | succ i ih =>
    have hi : i + 1 < x.offsets.size := (Array.getElem?_eq_some_iff.mp ha).1
    have hstart : x.offsets[i]? = some x.offsets[i] := Array.getElem?_eq_getElem _
    have hle := h.offset_mono (Nat.le_succ i) hstart ha
    rw [List.range_succ, List.flatMap_append, List.flatMap_singleton, ih hstart,
      entries_eq (h.row?_eq hstart ha), ← List.take_add, Nat.add_sub_cancel' hle]

/-- The rows of consistent parts are all the entries in order. -/
theorem Consistent.partitioned (h : x.Consistent) : x.Partitioned := by
  refine ⟨?_, ?_, ?_⟩
  · intro i hi
    obtain ⟨a, ha⟩ := h.exists_offset hi.le
    obtain ⟨b, hb⟩ := h.exists_offset hi
    have hrow := h.row?_eq ha hb
    rw [entries_eq hrow, hrow]
  · intro i hi
    obtain ⟨a, ha⟩ := h.exists_offset hi
    rw [h.flatMap_entries ha, List.length_take, h.length_stored, min_eq_left (h.offset_le ha), ha]
  · rw [h.flatMap_entries h.offset_rows, ← h.length_stored, List.take_length]

/-- Consistent parts have all their rows, with entries in range. -/
theorem Consistent.readable (h : x.Consistent) : x.Readable := by
  intro i hi
  refine ⟨_, h.partitioned.read i hi, ?_⟩
  rintro ⟨c, v⟩ hentry
  have hmem : (c, v) ∈ x.stored := by
    rw [← h.partitioned.all]
    exact List.mem_flatMap.mpr ⟨i, List.mem_range.mpr hi, hentry⟩
  exact h.columns_lt c (Array.mem_toList_iff.mp (List.of_mem_zip hmem).1)

end SparseMatrix

end NeighborSearch
