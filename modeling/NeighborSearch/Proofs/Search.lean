import NeighborSearch.Proofs.LeaveOut
import NeighborSearch.Proofs.Matrix
import NeighborSearch.Estimator

/-!
# What a search finds

Every point of one matrix is measured against every point of another one. A search among
well-formed matrices fails only where the metric cannot measure their points; otherwise every query
point gets the row that its candidates determine.
-/

namespace NeighborSearch

/-! ## Metrics -/

namespace Metric

/-- The metric passes both of its checks. -/
structure Fits (m : Metric) (columns : Nat) : Prop where
  parameter : m.validate = .ok ()
  features : m.validateFeatures columns = .ok ()

/-- All pairs of points with so many coordinates have a distance, whatever the checks say. -/
def Measures (m : Metric) (columns : Nat) : Prop := m = .haversine → 2 ≤ columns

/-- If there is an exponent, it is a number that is at least one. -/
def Admissible (p : Option Float) : Prop :=
  ∀ q, p = some q → q.isNaN = false ∧ 1 ≤ q

theorem isNaN_or_lt_one_iff {p : Float} :
    (p.isNaN || decide (p < 1)) = true ↔ ¬Admissible (some p) := by
  have hone : (1 : Float).isNaN = false := by decide
  have hadmissible : Admissible (some p) ↔ p.isNaN = false ∧ 1 ≤ p := by simp [Admissible]
  rw [hadmissible, Bool.or_eq_true, decide_eq_true_iff]
  cases hnan : p.isNaN with
  | true => exact iff_of_true (Or.inl rfl) nofun
  | false =>
    rw [← not_lt_iff_le hnan hone]
    simp

/-- A metric passes its check if its exponent, if it has one, is admissible. -/
theorem validate_eq_ok_iff {m : Metric} : m.validate = .ok () ↔ Admissible m.exponent? := by
  cases m with
  | minkowski p =>
    unfold validate
    dsimp only
    split_ifs with hrange
    · exact iff_of_false nofun (isNaN_or_lt_one_iff.mp hrange)
    · exact iff_of_true rfl (not_not.mp fun h => hrange (isNaN_or_lt_one_iff.mpr h))
  | _ => exact iff_of_true rfl nofun

theorem validate_minkowski_eq_error {p : Float} (h : ¬Admissible (some p)) :
    (minkowski p).validate
      = .error (.invalidHyperparameter "p" (Decimal.plain.describe p) ">= 1") :=
  if_pos (isNaN_or_lt_one_iff.mpr h)

theorem validate_minkowski {p : Float} (h : (minkowski p).validate = .ok ()) :
    p.isNaN = false ∧ 1 ≤ p :=
  validate_eq_ok_iff.mp h p rfl

/-- Only haversine asks for a number of coordinates. -/
theorem validateFeatures_eq_ok_iff {m : Metric} {columns : Nat} :
    m.validateFeatures columns = .ok () ↔ (m = .haversine → columns = 2) := by
  cases m with
  | haversine =>
    unfold validateFeatures
    split_ifs with h <;> simp [h]
  | _ => simp [validateFeatures]

/-- Only haversine misses coordinates, if there are fewer than two. -/
theorem distance?_eq_none_iff {m : Metric} {a b : Point} :
    m.distance? a b = none ↔ m = .haversine ∧ (a.length < 2 ∨ b.length < 2) := by
  rw [distance?, Option.map_eq_none_iff]
  cases m with
  | haversine =>
    simp only [formula?, true_and]
    match a, b with
    | [], b => simp [greatCircleDistance?]
    | [x], b => simp [greatCircleDistance?]
    | x :: y :: _, [] => simp [greatCircleDistance?]
    | x :: y :: _, [z] => simp [greatCircleDistance?]
    | x :: y :: _, z :: w :: _ => simp [greatCircleDistance?]
  | _ => simp [formula?]

/-- A distance is a number without a sign, or NaN. -/
theorem unsigned_distance {m : Metric} {a b : Point} {d : Float} (h : m.distance? a b = some d) :
    Unsigned d := by
  obtain ⟨raw, -, rfl⟩ := Option.map_eq_some_iff.mp h
  exact unsigned_nonnegative raw

theorem Fits.measures {m : Metric} {columns : Nat} (h : m.Fits columns) : m.Measures columns := by
  intro hm
  have := validateFeatures_eq_ok_iff.mp h.features hm
  omega

theorem Measures.exists_distance {m : Metric} {columns : Nat} (h : m.Measures columns)
    {a b : Point} (ha : a.length = columns) (hb : b.length = columns) :
    ∃ d, m.distance? a b = some d := by
  rw [← Option.ne_none_iff_exists', ne_eq, distance?_eq_none_iff]
  rintro ⟨hm, hshort⟩
  have := h hm
  omega

end Metric

/-! ## Lists of optional values -/

section Options

variable {α β : Type} {f : α → Option β} {xs : List α} {ys : List β}

theorem mapM_eq_some_iff : xs.mapM f = some ys ↔ xs.map f = ys.map some := by
  induction xs generalizing ys with
  | nil => cases ys <;> simp
  | cons x xs ih =>
    rw [List.mapM_cons]
    constructor
    · intro h
      obtain ⟨y, hy, h⟩ := Option.bind_eq_some_iff.mp h
      obtain ⟨zs, hzs, h⟩ := Option.bind_eq_some_iff.mp h
      cases h
      rw [List.map_cons, List.map_cons, hy, ih.mp hzs]
    · intro h
      cases ys with
      | nil => cases h
      | cons y ys =>
        rw [List.map_cons, List.map_cons, List.cons.injEq] at h
        rw [h.1, ih.mpr h.2]
        rfl

theorem exists_mapM_eq_some (h : ∀ x ∈ xs, ∃ y, f x = some y) : ∃ ys, xs.mapM f = some ys := by
  induction xs with
  | nil => exact ⟨[], rfl⟩
  | cons x xs ih =>
    obtain ⟨y, hy⟩ := h x List.mem_cons_self
    obtain ⟨ys, hys⟩ := ih fun z hz => h z (List.mem_cons_of_mem x hz)
    refine ⟨y :: ys, ?_⟩
    rw [List.mapM_cons, hy, hys]
    rfl

theorem mapM_eq_none {x : α} (hx : x ∈ xs) (hnone : f x = none) : xs.mapM f = none := by
  cases hys : xs.mapM f with
  | none => rfl
  | some ys =>
    have hmem : none ∈ ys.map some := by
      rw [← mapM_eq_some_iff.mp hys]
      exact List.mem_map.mpr ⟨x, hx, hnone⟩
    simp at hmem

theorem length_of_mapM (h : xs.mapM f = some ys) : ys.length = xs.length := by
  simpa using (congrArg List.length (mapM_eq_some_iff.mp h)).symm

theorem getElem?_of_mapM (h : xs.mapM f = some ys) {i : Nat} {x : α} (hx : xs[i]? = some x) :
    ∃ y, f x = some y ∧ ys[i]? = some y := by
  have hi := congrArg (·[i]?) (mapM_eq_some_iff.mp h)
  simp only [List.getElem?_map, hx, Option.map_some] at hi
  obtain ⟨y, hy, hfy⟩ := Option.map_eq_some_iff.mp hi.symm
  exact ⟨y, hfy.symm, hy⟩

end Options

/-! ## Candidates of a query point -/

/-- `cs` has every row of `reference` in order, each with its distance from the query point. -/
structure Measured (metric : Metric) (reference : Matrix Float32) (query : Point)
    (cs : List Candidate) : Prop where
  length_eq : cs.length = reference.rows
  entry : ∀ j < reference.rows, ∃ point d, reference.row? j = some point ∧
    metric.distance? query point = some d ∧ cs[j]? = some ⟨d, j⟩

variable {metric : Metric} {reference queries : Matrix Float32} {query : Point}
  {cs : List Candidate}

/-- The candidates are the stored points in order. -/
theorem Measured.map_index (h : Measured metric reference query cs) :
    cs.map Candidate.index = List.range reference.rows := by
  refine List.ext_getElem? ?_
  intro j
  rw [List.getElem?_map]
  by_cases hj : j < reference.rows
  · obtain ⟨point, d, -, -, hc⟩ := h.entry j hj
    rw [hc, List.getElem?_range hj]
    rfl
  · rw [List.getElem?_eq_none (by rw [h.length_eq]; omega),
      List.getElem?_eq_none (by rw [List.length_range]; omega)]
    rfl

/-- A query point has one list of candidates. -/
theorem Measured.unique {ds : List Candidate} (h : Measured metric reference query cs)
    (h' : Measured metric reference query ds) : cs = ds := by
  refine List.ext_getElem? ?_
  intro j
  by_cases hj : j < reference.rows
  · obtain ⟨point, d, hpoint, hd, hc⟩ := h.entry j hj
    obtain ⟨point', d', hpoint', hd', hc'⟩ := h'.entry j hj
    rw [hpoint, Option.some.injEq] at hpoint'
    rw [← hpoint', hd, Option.some.injEq] at hd'
    rw [hc, hc', hd']
  · rw [List.getElem?_eq_none (by rw [h.length_eq]; omega),
      List.getElem?_eq_none (by rw [h'.length_eq]; omega)]

/-- The candidates of a search have distances without a sign and different indices. -/
theorem Measured.valid (h : Measured metric reference query cs) : Candidate.Valid cs := by
  refine ⟨?_, ?_⟩
  · intro c hc
    obtain ⟨j, hj, hcj⟩ := List.getElem_of_mem hc
    obtain ⟨point, d, -, hd, hentry⟩ := h.entry j (h.length_eq ▸ hj)
    rw [List.getElem?_eq_getElem hj, hcj, Option.some.injEq] at hentry
    rw [hentry]
    exact Metric.unsigned_distance hd
  · rw [h.map_index]
    exact List.nodup_range

theorem Measured.index_lt (h : Measured metric reference query cs) {c : Candidate} (hc : c ∈ cs) :
    c.index < reference.rows := by
  rw [← List.mem_range, ← h.map_index]
  exact List.mem_map_of_mem hc

theorem getElem?_zipIdx_map_range {α : Type} (f : Nat → α) {n i : Nat} (hi : i < n) :
    ((List.range n).map f).zipIdx[i]? = some (f i, i) := by
  rw [List.getElem?_zipIdx, List.getElem?_map, List.getElem?_range hi]
  simp

/-- The candidates that a search computes are the measured ones. -/
theorem measured_of_candidates? (href : reference.WellFormed)
    (h : candidates? metric ((List.range reference.rows).map reference.rowAt) query = some cs) :
    Measured metric reference query cs := by
  refine ⟨by simpa using length_of_mapM h, ?_⟩
  intro j hj
  obtain ⟨c, hc, hcs⟩ := getElem?_of_mapM h (getElem?_zipIdx_map_range reference.rowAt hj)
  obtain ⟨d, hd, rfl⟩ := Option.map_eq_some_iff.mp hc
  exact ⟨reference.rowAt j, d, Matrix.row?_eq href hj, hd, hcs⟩

theorem mem_zipIdx_map_range {α : Type} {f : Nat → α} {n : Nat} {entry : α × Nat} :
    entry ∈ ((List.range n).map f).zipIdx ↔ ∃ i < n, entry = (f i, i) := by
  constructor
  · intro h
    obtain ⟨i, hi, rfl⟩ := List.getElem_of_mem h
    exact ⟨i, by simpa using hi, by simp⟩
  · rintro ⟨i, hi, rfl⟩
    exact List.mem_of_getElem? (getElem?_zipIdx_map_range f hi)

theorem exists_candidates (href : reference.WellFormed) (hmetric : metric.Measures reference.columns)
    (hquery : query.length = reference.columns) :
    ∃ cs, candidates? metric ((List.range reference.rows).map reference.rowAt) query = some cs := by
  refine exists_mapM_eq_some ?_
  intro entry hentry
  obtain ⟨j, hj, rfl⟩ := mem_zipIdx_map_range.mp hentry
  obtain ⟨d, hd⟩ := hmetric.exists_distance hquery (Matrix.length_rowAt href hj)
  exact ⟨⟨d, j⟩, Option.map_eq_some_iff.mpr ⟨d, hd, rfl⟩⟩

/-! ## Rows of an answer -/

/-- The row that the candidates of the query point `i` determine. -/
def Candidate.chosen (selfMatch : SelfMatch) (k i : Nat) (cs : List Candidate) : List Candidate :=
  match selfMatch with
  | .include => (ranking cs).take k
  | .exclude => leaveOut i ((ranking cs).take (k + 1))

/-- The chosen candidates stand in the order of the ranking. -/
theorem Candidate.chosen_sublist (selfMatch : SelfMatch) (k i : Nat) (cs : List Candidate) :
    (chosen selfMatch k i cs).Sublist (ranking cs) := by
  match selfMatch with
  | .include => exact List.take_sublist k _
  | .exclude => exact (leaveOut_sublist i _).trans (List.take_sublist (k + 1) _)

theorem neighborsOf?_eq (metric : Metric) (points : List Point) (k : Nat) (selfMatch : SelfMatch)
    (query : Point) (i : Nat) :
    neighborsOf? metric points k selfMatch query i
      = (candidates? metric points query).map (Candidate.chosen selfMatch k i) := by
  match selfMatch with
  | .include => rfl
  | .exclude =>
    rw [neighborsOf?, nearest?, Option.map_map]
    rfl

/-- A search treats its query points one after another. -/
theorem search?_eq (href : reference.WellFormed) (hqueries : queries.WellFormed) (k : Nat)
    (selfMatch : SelfMatch) :
    search? metric reference queries k selfMatch
      = ((List.range queries.rows).map queries.rowAt).zipIdx.mapM fun (query, i) =>
        neighborsOf? metric ((List.range reference.rows).map reference.rowAt) k selfMatch query i := by
  simp only [search?, Matrix.rows?_eq href, Matrix.rows?_eq hqueries, Option.bind_eq_bind,
    Option.bind_some]

/-- Points that can be measured are found, each with the candidates chosen for it. -/
theorem exists_search (href : reference.WellFormed) (hqueries : queries.WellFormed)
    (hcolumns : queries.columns = reference.columns) (hmetric : metric.Measures reference.columns)
    (k : Nat) (selfMatch : SelfMatch) :
    ∃ table, search? metric reference queries k selfMatch = some table ∧
      table.length = queries.rows ∧ ∀ i < queries.rows, ∃ cs,
        Measured metric reference (queries.rowAt i) cs ∧
        table[i]? = some (Candidate.chosen selfMatch k i cs) := by
  obtain ⟨table, htable⟩ : ∃ table, search? metric reference queries k selfMatch = some table := by
    rw [search?_eq href hqueries]
    refine exists_mapM_eq_some ?_
    intro entry hentry
    obtain ⟨i, hi, rfl⟩ := mem_zipIdx_map_range.mp hentry
    obtain ⟨cs, hcs⟩ := exists_candidates href hmetric
      ((Matrix.length_rowAt hqueries hi).trans hcolumns)
    refine ⟨Candidate.chosen selfMatch k i cs, ?_⟩
    simp only [neighborsOf?_eq, hcs, Option.map_some]
  refine ⟨table, htable, ?_, ?_⟩
  · rw [search?_eq href hqueries] at htable
    simpa using length_of_mapM htable
  · intro i hi
    rw [search?_eq href hqueries] at htable
    obtain ⟨row, hrow, hi⟩ := getElem?_of_mapM htable (getElem?_zipIdx_map_range queries.rowAt hi)
    simp only [neighborsOf?_eq] at hrow
    obtain ⟨cs, hcs, rfl⟩ := Option.map_eq_some_iff.mp hrow
    exact ⟨cs, measured_of_candidates? href hcs, hi⟩

theorem map_index_of_candidates? {points : List Point}
    (h : candidates? metric points query = some cs) :
    cs.map Candidate.index = List.range points.length := by
  have hlength : cs.length = points.length := by simpa using length_of_mapM h
  refine List.ext_getElem (by simp [hlength]) ?_
  intro j hj _
  rw [List.length_map] at hj
  have hpoint : points.zipIdx[j]? = some (points[j], j) := by simp [hlength ▸ hj]
  obtain ⟨c, hc, hcs⟩ := getElem?_of_mapM h hpoint
  obtain ⟨d, -, rfl⟩ := Option.map_eq_some_iff.mp hc
  rw [List.getElem?_eq_getElem hj, Option.some.injEq] at hcs
  rw [List.getElem_map, hcs, List.getElem_range]

/-- Whatever a search finds, it finds a row for every query point, determined by a candidate for
every stored point. -/
theorem rows_of_search? {k : Nat} {selfMatch : SelfMatch} {table : List (List Candidate)}
    (h : search? metric reference queries k selfMatch = some table) :
    table.length = queries.rows ∧ ∀ i row, table[i]? = some row →
      ∃ cs, cs.map Candidate.index = List.range reference.rows ∧
        row = Candidate.chosen selfMatch k i cs := by
  obtain ⟨points, hpoints, h⟩ := Option.bind_eq_some_iff.mp h
  obtain ⟨rows, hrows, h⟩ := Option.bind_eq_some_iff.mp h
  have hlength : table.length = rows.length := by simpa using length_of_mapM h
  refine ⟨hlength.trans (Matrix.length_of_rowsFrom? hrows), ?_⟩
  intro i row hi
  obtain ⟨hi', rfl⟩ := List.getElem?_eq_some_iff.mp hi
  have hquery : rows.zipIdx[i]? = some (rows[i], i) := by simp [hlength ▸ hi']
  obtain ⟨row, hrow, hi⟩ := getElem?_of_mapM h hquery
  simp only [neighborsOf?_eq] at hrow
  obtain ⟨cs, hcs, rfl⟩ := Option.map_eq_some_iff.mp hrow
  refine ⟨cs, ?_, (List.getElem?_eq_some_iff.mp hi).2⟩
  rw [map_index_of_candidates? hcs, Matrix.length_of_rowsFrom? hpoints]

/-- One pair of points with fewer than two coordinates is enough to break a great-circle search. -/
theorem search?_eq_none (href : reference.WellFormed) (hqueries : queries.WellFormed)
    (hmetric : ¬metric.Measures reference.columns)
    (hrows : 0 < reference.rows) (hpos : 0 < queries.rows) (k : Nat) (selfMatch : SelfMatch) :
    search? metric reference queries k selfMatch = none := by
  rw [search?_eq href hqueries]
  refine mapM_eq_none (mem_zipIdx_map_range.mpr ⟨0, hpos, rfl⟩) ?_
  simp only [neighborsOf?_eq, Option.map_eq_none_iff]
  refine mapM_eq_none (mem_zipIdx_map_range.mpr ⟨0, hrows, rfl⟩) ?_
  simp only [Option.map_eq_none_iff, Metric.distance?_eq_none_iff]
  rw [Metric.Measures, Classical.not_imp, Nat.not_le] at hmetric
  rw [Matrix.length_rowAt href hrows]
  exact ⟨hmetric.1, Or.inr hmetric.2⟩

end NeighborSearch
