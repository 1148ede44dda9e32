import NeighborSearch.Proofs.Estimator
import NeighborSearch.Proofs.UniformRows

/-!
# Graphs of arbitrary answers

An answer can be put together by hand, and need not tell neighbors that exist. If its matrices are
well-formed, it is either refused for an index out of range or for distances that are missing, or it
is laid out row by row. How many rows there are is told by the number of indices, which says nothing
if the rows are empty: then the graph has none, whatever the answer had, `toGraph_keeps_shape_iff`.
-/

namespace NeighborSearch

namespace Neighbors

variable {found : Neighbors}

/-- The matrices of the answer hold what their shapes say. -/
structure WellFormed (found : Neighbors) : Prop where
  indices : found.indices.WellFormed
  distances : ∀ ds, found.distances = some ds → ds.WellFormed

/-- Distances, if there are any, stand at the same places as the indices. -/
def Matched (found : Neighbors) : Prop :=
  ∀ ds, found.distances = some ds → ds.shape = found.indices.shape

/-- The answer has no graph: an index is out of range, or distances are to be shown and there are
none or not as many as there are indices. -/
def Unfit (found : Neighbors) (columns : Nat) (mode : GraphMode) : Prop :=
  (∃ j ∈ found.indices.data, columns ≤ j) ∨
    mode = .distance ∧ (found.distances = none ∨
      ∃ ds, found.distances = some ds ∧ ds.data.size ≠ found.indices.data.size)

/-- Row `i` of a graph lists row `i` of the answer in order, each neighbor with its value. -/
def RowShown (found : Neighbors) (mode : GraphMode) (g : SparseMatrix) (i : Nat) : Prop :=
  ∃ js vs, found.indices.row? i = some js ∧ g.row? i = some (js.zip vs) ∧
    match mode with
    | .connectivity => vs = js.map fun _ => 1
    | .distance => ∃ ds, found.distances = some ds ∧ ds.row? i = some vs

/-! ## From answers to graphs -/

/-- The graph that shows the neighbors with these values. Rows without neighbors are lost. -/
def graphWith (found : Neighbors) (columns : Nat) (values : Array Float32) : SparseMatrix :=
  .uniform (if found.indices.columns = 0 then 0 else found.indices.rows) columns
    found.indices.columns found.indices.data values

/-- Events aside, a graph is made of the values for its mode, cut into rows. -/
theorem toGraph_result (found : Neighbors) (columns : Nat) (mode : GraphMode) :
    (found.toGraph columns mode).result = (do
      let values ← found.graphValues mode
      SparseMatrix.ofUniformRows columns found.indices.columns found.indices.data values) := by
  unfold toGraph
  simp only [Traced.result_bind, Traced.result_liftM, Traced.result_emit, ok_bind]

/-- The values that a graph shows are ones or the distances of the answer. -/
theorem graphValues_eq_ok_iff {mode : GraphMode} {values : Array Float32} :
    found.graphValues mode = .ok values ↔
      match mode with
      | .connectivity => values = Array.replicate found.indices.data.size 1
      | .distance => ∃ ds, found.distances = some ds ∧ values = ds.data := by
  unfold graphValues
  cases mode with
  | connectivity => simp [eq_comm]
  | distance =>
    cases found.distances with
    | none => simp
    | some ds => simp [eq_comm]

/-- A graph comes about exactly if there is a value for every index and the indices name columns. -/
theorem toGraph_eq_ok_iff (h : found.indices.WellFormed) {columns : Nat} {mode : GraphMode}
    {g : SparseMatrix} :
    (found.toGraph columns mode).result = .ok g ↔ ∃ values, found.graphValues mode = .ok values ∧
      found.indices.data.size = values.size ∧ (∀ c ∈ found.indices.data, c < columns) ∧
      g = found.graphWith columns values := by
  rw [toGraph_result]
  cases found.graphValues mode with
  | error err => simp
  | ok values =>
    rw [ok_bind, SparseMatrix.ofUniformRows_eq_ok_iff h]
    simp [graphWith, and_assoc]

theorem exists_graphValues {columns : Nat} {mode : GraphMode} (hfit : ¬found.Unfit columns mode) :
    ∃ values, found.graphValues mode = .ok values ∧ found.indices.data.size = values.size := by
  cases mode with
  | connectivity => exact ⟨_, graphValues_eq_ok_iff.mpr rfl, Array.size_replicate.symm⟩
  | distance =>
    cases hds : found.distances with
    | none => exact absurd (Or.inr ⟨rfl, Or.inl hds⟩) hfit
    | some ds =>
      refine ⟨ds.data, graphValues_eq_ok_iff.mpr ⟨ds, hds, rfl⟩, ?_⟩
      by_contra hne
      exact hfit (Or.inr ⟨rfl, Or.inr ⟨ds, hds, Ne.symm hne⟩⟩)

/-- An answer that has no graph is refused, and no other. -/
theorem toGraph_eq_error_iff (h : found.indices.WellFormed) {columns : Nat} {mode : GraphMode} :
    (∃ err, (found.toGraph columns mode).result = .error err) ↔ found.Unfit columns mode := by
  constructor
  · rintro ⟨err, herr⟩
    by_contra hfit
    obtain ⟨values, hvalues, hsize⟩ := exists_graphValues hfit
    have hcolumns : ∀ c ∈ found.indices.data, c < columns := by
      intro c hc
      by_contra hle
      exact hfit (Or.inl ⟨c, hc, not_lt.mp hle⟩)
    cases herr.symm.trans ((toGraph_eq_ok_iff h).mpr ⟨values, hvalues, hsize, hcolumns, rfl⟩)
  · intro hunfit
    cases hresult : (found.toGraph columns mode).result with
    | error err => exact ⟨err, rfl⟩
    | ok g =>
      obtain ⟨values, hvalues, hsize, hcolumns, -⟩ := (toGraph_eq_ok_iff h).mp hresult
      rcases hunfit with ⟨c, hc, hle⟩ | ⟨rfl, hdistances⟩
      · exact absurd (hcolumns c hc) (not_lt.mpr hle)
      · obtain ⟨ds, hds, rfl⟩ := graphValues_eq_ok_iff.mp hvalues
        rcases hdistances with hnone | ⟨ds', hds', hne⟩
        · rw [hds] at hnone
          cases hnone
        · rw [hds, Option.some.injEq] at hds'
          exact absurd hsize.symm (hds' ▸ hne)

theorem consistent_graphWith (h : found.indices.WellFormed) {columns : Nat} {values : Array Float32}
    (hvalues : found.indices.data.size = values.size)
    (hcolumns : ∀ c ∈ found.indices.data, c < columns) :
    (found.graphWith columns values).Consistent := by
  refine (SparseMatrix.consistent_uniform_iff ?_).mpr ⟨hvalues, hcolumns⟩
  split_ifs with hk
  · rw [h, hk, Nat.mul_zero, Nat.mul_zero]
  · exact h

theorem row?_graphWith (h : found.indices.WellFormed) {columns : Nat} {values : Array Float32}
    (hvalues : found.indices.data.size = values.size) (hk : 0 < found.indices.columns) {i : Nat}
    (hi : i < found.indices.rows) :
    (found.graphWith columns values).row? i = some ((found.indices.rowAt i).zip
      (values.extract (i * found.indices.columns)
        (i * found.indices.columns + found.indices.columns)).toList) := by
  rw [graphWith, if_neg hk.ne']
  exact SparseMatrix.row?_uniform h (hvalues.symm.trans h) hi

theorem length_row_graphWith (h : found.indices.WellFormed) {values : Array Float32}
    (hvalues : found.indices.data.size = values.size) {i : Nat} (hi : i < found.indices.rows) :
    ((found.indices.rowAt i).zip (values.extract (i * found.indices.columns)
      (i * found.indices.columns + found.indices.columns)).toList).length
      = found.indices.columns := by
  have hend := h.row_end hi
  rw [List.length_zip, Matrix.length_rowAt h hi, Array.length_toList, Array.size_extract]
  omega

theorem rowShown_graphWith (h : found.WellFormed) (hmatched : found.Matched) {columns : Nat}
    {mode : GraphMode} {values : Array Float32} (hvalues : found.graphValues mode = .ok values)
    (hsize : found.indices.data.size = values.size) (hk : 0 < found.indices.columns) {i : Nat}
    (hi : i < found.indices.rows) : found.RowShown mode (found.graphWith columns values) i := by
  refine ⟨_, _, Matrix.row?_eq h.indices hi, row?_graphWith h.indices hsize hk hi, ?_⟩
  rw [graphValues_eq_ok_iff] at hvalues
  cases mode with
  | connectivity =>
    have hend := h.indices.row_end hi
    have hlength := Matrix.length_rowAt h.indices hi
    obtain rfl := hvalues
    rw [Array.extract_replicate, Array.toList_replicate, List.map_const', hlength]
    congr 1
    omega
  | distance =>
    obtain ⟨ds, hds, rfl⟩ := hvalues
    obtain ⟨hrows, hcolumns⟩ := Prod.ext_iff.mp (hmatched ds hds)
    refine ⟨ds, hds, ?_⟩
    rw [Matrix.row?_eq (h.distances ds hds) (hi.trans_eq hrows.symm), Matrix.rowAt]
    simp only [Matrix.shape] at hcolumns
    rw [hcolumns]

/-- What comes of laying out an answer: a refusal if there is no graph of it, and otherwise a
consistent graph that shows the rows of the answer. -/
structure LaidOut (found : Neighbors) (columns : Nat) (mode : GraphMode)
    (outcome : Except Error SparseMatrix) : Prop where
  refused : (∃ err, outcome = .error err) ↔ found.Unfit columns mode
  consistent : ∀ g, outcome = .ok g → g.columns = columns ∧ g.Consistent
  rows : ∀ g, outcome = .ok g → 0 < found.indices.columns → found.Matched →
    g.rows = found.indices.rows ∧ ∀ i < found.indices.rows, found.RowShown mode g i

/-- Every answer in good form is laid out as its specification says, or refused with the error that
it names. -/
theorem laidOut_toGraph (h : found.WellFormed) (columns : Nat) (mode : GraphMode) :
    found.LaidOut columns mode (found.toGraph columns mode).result := by
  refine ⟨toGraph_eq_error_iff h.indices, ?_, ?_⟩
  · intro g hg
    obtain ⟨values, -, hsize, hcolumns, rfl⟩ := (toGraph_eq_ok_iff h.indices).mp hg
    exact ⟨rfl, consistent_graphWith h.indices hsize hcolumns⟩
  · intro g hg hk hmatched
    obtain ⟨values, hvalues, hsize, -, rfl⟩ := (toGraph_eq_ok_iff h.indices).mp hg
    exact ⟨if_neg hk.ne', fun i hi => rowShown_graphWith h hmatched hvalues hsize hk hi⟩

/-! ## The shape of a graph -/

/-- Every graph of an answer has the columns that were asked for. It has the rows of the answer, each
with all neighbors, unless the answer has rows and no neighbors in them; then it has no rows. -/
theorem toGraph_keeps_shape_iff {found : Neighbors} (h : found.indices.WellFormed) {columns : Nat}
    {mode : GraphMode} {g : SparseMatrix} (hg : (found.toGraph columns mode).result = .ok g) :
    g.columns = columns ∧
    ((g.rows = found.indices.rows ∧ ∀ i < found.indices.rows, ∃ entries,
        g.row? i = some entries ∧ entries.length = found.indices.columns) ↔
      0 < found.indices.columns ∨ found.indices.rows = 0) ∧
    (found.indices.columns = 0 → g.rows = 0 ∧ ∀ i, g.row? i = none) := by
  obtain ⟨values, -, hsize, hcolumns, rfl⟩ := (toGraph_eq_ok_iff h).mp hg
  have hempty : found.indices.columns = 0 → (found.graphWith columns values).rows = 0 :=
    fun hk => if_pos hk
  refine ⟨rfl, ⟨fun ⟨hrows, _⟩ => ?_, ?_⟩, fun hk => ⟨hempty hk, fun i => ?_⟩⟩
  · rcases Nat.eq_zero_or_pos found.indices.columns with hk | hk
    · exact Or.inr (hrows.symm.trans (hempty hk))
    · exact Or.inl hk
  · rintro (hk | hnone)
    · refine ⟨if_neg hk.ne', fun i hi => ?_⟩
      exact ⟨_, row?_graphWith h hsize hk hi, length_row_graphWith h hsize hi⟩
    · rw [hnone]
      refine ⟨?_, fun i hi => absurd hi (Nat.not_lt_zero i)⟩
      simp [graphWith, SparseMatrix.uniform, hnone]
  · exact (consistent_graphWith h hsize hcolumns).row?_eq_none ((hempty hk).trans_le (Nat.zero_le i))

/-- Two points that are each other's second neighbors. -/
def crossed : Neighbors :=
  ⟨⟨2, 2, #[0, 1, 1, 0]⟩, some ⟨2, 2, #[0, 3, 0, 3]⟩⟩

theorem crossed_keeps_shape :
    (crossed.toGraph 2 .distance).result = .ok ⟨2, 2, #[0, 2, 4], #[0, 1, 1, 0], #[0, 3, 0, 3]⟩ ∧
      ∀ i < 2, ∃ entries, (⟨2, 2, #[0, 2, 4], #[0, 1, 1, 0], #[0, 3, 0, 3]⟩ : SparseMatrix).row? i
        = some entries ∧ entries.length = 2 := by
  have hg : (crossed.toGraph 2 .distance).result
      = .ok ⟨2, 2, #[0, 2, 4], #[0, 1, 1, 0], #[0, 3, 0, 3]⟩ := by cbv
  have hwell : crossed.indices.WellFormed := rfl
  exact ⟨hg, ((toGraph_keeps_shape_iff hwell hg).2.1.mpr (Or.inl (by decide))).2⟩

/-- Two query points without neighbors leave a graph without rows. -/
theorem lost_rows :
    ((⟨⟨2, 0, #[]⟩, none⟩ : Neighbors).toGraph 3 .connectivity).result = .ok ⟨0, 3, #[0], #[], #[]⟩ ∧
      (⟨⟨2, 0, #[]⟩, none⟩ : Neighbors).WellFormed ∧ (⟨⟨2, 0, #[]⟩, none⟩ : Neighbors).Matched ∧
      (⟨0, 3, #[0], #[], #[]⟩ : SparseMatrix).rows ≠ 2 ∧
      (⟨0, 3, #[0], #[], #[]⟩ : SparseMatrix).row? 0 = none :=
  ⟨by cbv, ⟨rfl, nofun⟩, nofun, by decide, rfl⟩

end Neighbors

end NeighborSearch
