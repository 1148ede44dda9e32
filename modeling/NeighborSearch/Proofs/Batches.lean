import NeighborSearch.Proofs.Graphs

/-!
# Queries in batches

Every query point is looked up on its own, so the answer to a stack of query points is the stack of
the answers. If a part of the stack is refused, then so is the whole, for the reason of the first
such part.
-/

namespace NeighborSearch

/-! ## Searching a stack -/

theorem mapM_zipIdx {α β : Type} (f : α → Option β) (xs : List α) :
    (xs.zipIdx.mapM fun (x, _) => f x) = xs.mapM f := by
  have h := List.mapM_map (f := Prod.fst) (g := f) (l := xs.zipIdx)
  rw [List.zipIdx_map_fst] at h
  exact h.symm

variable {metric : Metric} {reference upper lower : Matrix Float32} {k : Nat}

/-- Where a point may be a neighbor of itself, its place among the query points plays no part. -/
theorem search?_include (metric : Metric) (reference queries : Matrix Float32) (k : Nat) :
    search? metric reference queries k .include = (do
      let points ← reference.rows?
      (← queries.rows?).mapM (nearest? metric points k)) := by
  unfold search?
  cases reference.rows? with
  | none => rfl
  | some points =>
    cases queries.rows? with
    | none => rfl
    | some rows => exact mapM_zipIdx (nearest? metric points k) rows

/-- A search for two batches one below the other is one search after the other. -/
theorem search?_append (hupper : upper.WellFormed) (hlower : lower.WellFormed)
    (hcolumns : upper.columns = lower.columns) :
    search? metric reference (upper.append lower) k .include = (do
      let first ← search? metric reference upper k .include
      let second ← search? metric reference lower k .include
      return first ++ second) := by
  simp only [search?_include, Matrix.rows?_append hupper hlower hcolumns, Matrix.rows?_eq hupper,
    Matrix.rows?_eq hlower, Option.bind_eq_bind, Option.bind_some, List.mapM_append]
  cases reference.rows? with
  | none => rfl
  | some points => rfl

/-! ## Stacking answers -/

/-- The answer that lists the rows of one answer and below them those of another one. -/
def Neighbors.append (upper lower : Neighbors) : Neighbors :=
  ⟨upper.indices.append lower.indices,
    upper.distances.bind fun ds => lower.distances.map ds.append⟩

theorem Neighbors.ofTable_append (k : Nat) (withDistances : Bool)
    (first second : List (List Candidate)) :
    ofTable k withDistances (first ++ second)
      = (ofTable k withDistances first).append (ofTable k withDistances second) := by
  cases withDistances <;> simp [ofTable, Neighbors.append, Matrix.layout_append]

namespace Estimator

/-- The answer for two batches is the answer for the first stacked on that for the second, and the
first failure counts. -/
theorem collect_append (hupper : upper.WellFormed) (hlower : lower.WellFormed)
    (hcolumns : upper.columns = lower.columns) (hpos : 1 ≤ k)
    (hk : k ≤ SelfMatch.candidateCount .include reference.rows) (withDistances : Bool) :
    collect metric reference (upper.append lower) k .include withDistances = (do
      let first ← collect metric reference upper k .include withDistances
      let second ← collect metric reference lower k .include withDistances
      return first.append second) := by
  have hstack : search? metric reference (upper.append lower) k .include = _ :=
    search?_append hupper hlower hcolumns
  cases hfirst : search? metric reference upper k .include with
  | none =>
    rw [hfirst] at hstack
    rw [collect_eq_error hfirst, collect_eq_error hstack, error_bind]
  | some first =>
    have hrows := (listing_of_search? hpos hk hfirst).length
    rw [collect_eq hfirst hrows, ok_bind]
    cases hsecond : search? metric reference lower k .include with
    | none =>
      rw [hfirst, hsecond] at hstack
      rw [collect_eq_error hsecond, collect_eq_error hstack, error_bind]
    | some second =>
      have hrows' := (listing_of_search? hpos hk hsecond).length
      rw [hfirst, hsecond] at hstack
      have hall : ∀ row ∈ first ++ second, row.length = k := by
        intro row hrow
        rcases List.mem_append.mp hrow with hrow | hrow
        · exact hrows row hrow
        · exact hrows' row hrow
      rw [collect_eq hsecond hrows', ok_bind, collect_eq hstack hall, Neighbors.ofTable_append]
      rfl

variable {e : Estimator} {s : FittedSet} {n : Option Nat} {withDistances : Bool} {α : Type}
  [Element α] {x y : Matrix α}

theorem shaped_of_query (hs : e.fitted = some s) {found : Neighbors}
    (hfound : (e.query x n withDistances).result = .ok found) :
    found.Shaped x.rows (n.getD e.config.neighbors) withDistances := by
  rcases oneTable_query (n := n) hs x with ⟨err, hrefused⟩ | ⟨table, hlisting, hlength, hanswer⟩
  · cases (hrefused withDistances).symm.trans hfound
  · rw [← Except.ok.inj ((hanswer withDistances).symm.trans hfound), ← hlength]
    exact Neighbors.shaped_ofTable hlisting.length withDistances

/-- A query for a stack answers its parts, whatever the metric can measure. -/
theorem query_append (he : e.Reachable) (hs : e.fitted = some s)
    (hmetric : e.config.metric.Measures s.data.columns) (hx : x.WellFormed) (hy : y.WellFormed)
    (hcolumns : x.columns = y.columns) (n : Option Nat) (withDistances : Bool) :
    (e.query (x.append y) n withDistances).result = (do
      let upper ← (e.query x n withDistances).result
      let lower ← (e.query y n withDistances).result
      return upper.append lower) := by
  have hstack : (x.append y).columns = x.columns := rfl
  simp only [query_result hs, hstack, ← hcolumns]
  split_ifs with hwidth
  · rfl
  rcases e.resolveNeighbors_cases n s.data.rows with ⟨err, hk, -⟩ | ⟨hk, hpos, hle⟩
  · rw [hk]
    rfl
  have hcount : n.getD e.config.neighbors ≤ SelfMatch.candidateCount .include s.data.rows := hle
  rw [hk, ok_bind, ok_bind, ok_bind, Matrix.toFloat32_append]
  cases hupper : x.toFloat32 true with
  | error err => rfl
  | ok upper =>
    obtain rfl := Matrix.toFloat32_eq_ok hupper
    cases hlower : y.toFloat32 true with
    | error err =>
      -- The upper part must not fail in its search, which comes after the check of the lower part.
      obtain ⟨first, hfirst, -⟩ := exists_collect (he.proper hs).wellFormed hx.narrowed
        (not_not.mp hwidth) hmetric hpos hcount withDistances
      rw [ok_bind, ok_bind, hfirst]
      rfl
    | ok lower =>
      obtain rfl := Matrix.toFloat32_eq_ok hlower
      exact collect_append hx.narrowed hy.narrowed hcolumns hpos hcount withDistances

/-- The answer to a stack of query points is the stack of the answers, all of whose rows have the
same length. If a part is refused, then so is the stack, for the reason of its first such part. -/
theorem stacked_query_pointwise (he : e.Reachable) (hs : e.fitted = some s)
    (hmetric : e.config.metric.Fits s.data.columns) (hx : x.WellFormed) (hy : y.WellFormed)
    (hcolumns : x.columns = y.columns) (n : Option Nat) (withDistances : Bool) :
    (e.query (x.append y) n withDistances).result = (do
      let upper ← (e.query x n withDistances).result
      let lower ← (e.query y n withDistances).result
      return upper.append lower) ∧
    ∀ upper lower, (e.query x n withDistances).result = .ok upper →
      (e.query y n withDistances).result = .ok lower →
      ∃ k, upper.Shaped x.rows k withDistances ∧ lower.Shaped y.rows k withDistances := by
  refine ⟨query_append he hs hmetric.measures hx hy hcolumns n withDistances, ?_⟩
  intro upper lower hupper hlower
  exact ⟨_, shaped_of_query hs hupper, shaped_of_query hs hlower⟩

theorem overlapping_stack_pointwise :
    (ofOverlapping.query ((⟨1, 1, #[5]⟩ : Matrix Float).append ⟨2, 1, #[9, 4]⟩) (some 2) true).result
      = (do
        let upper ← (ofOverlapping.query (⟨1, 1, #[5]⟩ : Matrix Float) (some 2) true).result
        let lower ← (ofOverlapping.query (⟨2, 1, #[9, 4]⟩ : Matrix Float) (some 2) true).result
        return upper.append lower) := by
  have h := stacked_query_pointwise (x := (⟨1, 1, #[5]⟩ : Matrix Float)) (y := ⟨2, 1, #[9, 4]⟩)
    reachable_ofOverlapping fitted_ofOverlapping fits_ofOverlapping rfl rfl rfl (some 2) true
  exact h.1

end Estimator

end NeighborSearch
