import NeighborSearch.Proofs.Answer

/-!
# Checks before a search

The number of neighbors is checked by every query, the metric only when points are stored. A metric
that is changed afterwards reaches the search unchecked, so the queries of an estimator are safe
exactly as long as the metric in force would still pass: `calls_checked_iff`.
-/

namespace NeighborSearch

/-! ## Staying in bounds -/

/-- The outcome is not an access out of bounds. -/
def InBounds {α : Type} (outcome : Except Error α) : Prop := outcome ≠ .error .outOfBounds

section InBounds

variable {α β : Type} {x : Except Error α}

theorem inBounds_ok (a : α) : InBounds (.ok a : Except Error α) := fun h => nomatch h

theorem InBounds.bind {f : α → Except Error β} (hx : InBounds x)
    (hf : ∀ a, x = .ok a → InBounds (f a)) : InBounds (x >>= f) := by
  cases x with
  | ok a => exact hf a rfl
  | error err =>
    intro h
    exact hx (by rw [Except.error.inj h])

theorem InBounds.map (f : α → β) (hx : InBounds x) : InBounds (x.map f) := by
  cases x with
  | ok a => exact inBounds_ok (f a)
  | error err =>
    intro h
    exact hx (by rw [Except.error.inj h])

end InBounds

/-- With an offset for every row, the number of offsets is no size that could outgrow a word. -/
theorem inBounds_ofParts {rows : Nat} {offsets : Array Nat} (hoffsets : offsets.size = rows + 1)
    (columns : Nat) (indices : Array Nat) (values : Array Float32) :
    InBounds (SparseMatrix.ofParts rows columns offsets indices values) := by
  rw [SparseMatrix.ofParts, hoffsets, Overflow.sizeFor?_self, orOutOfBounds_some, ok_bind]
  split_ifs
  · exact nofun
  · exact nofun
  · exact nofun
  · split
    · exact nofun
    · exact inBounds_ok _

/-- Laying out an answer never leaves the bounds, whatever the answer. -/
theorem inBounds_toGraph (found : Neighbors) (columns : Nat) (mode : GraphMode) :
    InBounds (found.toGraph columns mode).result := by
  unfold Neighbors.toGraph
  simp only [Traced.result_bind, Traced.result_liftM, Traced.result_emit, ok_bind]
  refine InBounds.bind ?_ fun values _ => inBounds_ofParts (by simp) _ _ _
  unfold Neighbors.graphValues
  split
  · exact inBounds_ok _
  · exact inBounds_ok _
  · exact nofun

theorem inBounds_toFloat32 {α : Type} [Element α] (x : Matrix α) (allowed : Bool) :
    InBounds (x.toFloat32 allowed) := by
  unfold Matrix.toFloat32
  split_ifs
  · exact inBounds_ok _
  · exact nofun
  · split
    · exact nofun
    · exact inBounds_ok _

namespace Estimator

/-- A number of neighbors is refused, or it is at least one and at most the number of candidates. -/
theorem resolveNeighbors_cases (e : Estimator) (n : Option Nat) (candidates : Nat) :
    (∃ err, e.resolveNeighbors n candidates = .error err ∧ err ≠ .outOfBounds) ∨
    (e.resolveNeighbors n candidates = .ok (n.getD e.config.neighbors) ∧
      1 ≤ n.getD e.config.neighbors ∧ n.getD e.config.neighbors ≤ candidates) := by
  unfold resolveNeighbors
  dsimp only
  split_ifs with hzero hmany
  · exact Or.inl ⟨_, rfl, nofun⟩
  · exact Or.inl ⟨_, rfl, nofun⟩
  · exact Or.inr ⟨rfl, by omega, by omega⟩

/-! ## Calls -/

/-- A neighbor query of any of the four kinds. -/
inductive Call : Type 1
  | query {α : Type} [Element α] (x : Matrix α) (n : Option Nat) (withDistances : Bool)
  | queryFitted (n : Option Nat) (selfMatch : SelfMatch) (withDistances : Bool)
  | graph {α : Type} [Element α] (x : Matrix α) (n : Option Nat) (mode : GraphMode)
  | graphFitted (n : Option Nat) (mode : GraphMode) (selfMatch : SelfMatch)

namespace Call

/-- The query points are in good form. -/
def WellFormed : Call → Prop
  | @query _ _ x _ _ => x.WellFormed
  | @graph _ _ x _ _ => x.WellFormed
  | _ => True

/-- How a call to an estimator ends, the answer left aside. -/
def outcome (e : Estimator) : Call → Except Error Unit
  | @query _ _ x n withDistances => (e.query x n withDistances).result.map fun _ => ()
  | .queryFitted n selfMatch withDistances =>
    (e.queryFitted n selfMatch withDistances).result.map fun _ => ()
  | @graph _ _ x n mode => (e.index.graph x n mode).result.map fun _ => ()
  | .graphFitted n mode selfMatch => (e.index.graphFitted n mode selfMatch).result.map fun _ => ()

end Call

/-- Events aside, a graph of given points is the count, the query and the layout. -/
theorem graph_result {α : Type} [Element α] (e : Estimator) (x : Matrix α) (n : Option Nat)
    (mode : GraphMode) :
    (e.index.graph x n mode).result = (do
      let columns ← e.sampleCount
      let found ← (e.query x n mode.needsDistances).result
      (found.toGraph columns mode).result) := by
  simp only [NeighborIndex.graph, index, Traced.result_bind, Traced.result_liftM]
  rfl

theorem graphFitted_result (e : Estimator) (n : Option Nat) (mode : GraphMode)
    (selfMatch : SelfMatch) :
    (e.index.graphFitted n mode selfMatch).result = (do
      let columns ← e.sampleCount
      let found ← (e.queryFitted n selfMatch mode.needsDistances).result
      (found.toGraph columns mode).result) := by
  simp only [NeighborIndex.graphFitted, index, Traced.result_bind, Traced.result_liftM]
  rfl

theorem Call.outcome_of_not_fitted {e : Estimator} (hs : e.fitted = none) (call : Call) :
    call.outcome e = .error (.notFitted displayName) := by
  cases call with
  | query x n withDistances => simp [outcome, Estimator.query, fittedData, fittedSet, hs, Except.map]
  | queryFitted n selfMatch withDistances =>
    simp [outcome, Estimator.queryFitted, fittedData, fittedSet, hs, Except.map]
  | graph x n mode =>
    simp [outcome, graph_result, sampleCount, fittedData, fittedSet, hs, Except.map]
  | graphFitted n mode selfMatch =>
    simp [outcome, graphFitted_result, sampleCount, fittedData, fittedSet, hs, Except.map]

theorem sampleCount_eq {e : Estimator} {s : FittedSet} (hs : e.fitted = some s) :
    e.sampleCount = .ok s.data.rows := by
  simp [sampleCount, fittedData, fittedSet, hs, Except.map]

variable {e : Estimator} {s : FittedSet}

/-- A check refuses the query, whether or not distances are asked for, or the search is run. -/
theorem query_cases {α : Type} [Element α] (hs : e.fitted = some s) (x : Matrix α)
    (n : Option Nat) :
    (∃ err, err ≠ .outOfBounds ∧
      ∀ withDistances, (e.query x n withDistances).result = .error err) ∨
    (1 ≤ n.getD e.config.neighbors ∧
      n.getD e.config.neighbors ≤ SelfMatch.candidateCount .include s.data.rows ∧
      x.columns = s.data.columns ∧
      ∀ withDistances, (e.query x n withDistances).result = collect e.config.metric s.data
        x.narrowed (n.getD e.config.neighbors) .include withDistances) := by
  simp only [query_result hs]
  split_ifs with hcolumns
  · exact Or.inl ⟨.sizeMismatch "n_features" s.data.columns x.columns, nofun, fun _ => rfl⟩
  · rcases e.resolveNeighbors_cases n s.data.rows with ⟨err, hk, hin⟩ | ⟨hk, hpos, hle⟩
    · rw [hk]
      exact Or.inl ⟨err, hin, fun _ => rfl⟩
    · rw [hk]
      cases hq : x.toFloat32 true with
      | error err =>
        refine Or.inl ⟨err, ?_, fun _ => rfl⟩
        rintro rfl
        exact inBounds_toFloat32 x true hq
      | ok q =>
        obtain rfl := Matrix.toFloat32_eq_ok hq
        exact Or.inr ⟨hpos, hle, not_not.mp hcolumns, fun _ => rfl⟩

/-- A query for the stored points is refused before the search, or it is what the search collects.
-/
theorem queryFitted_cases (hs : e.fitted = some s) (n : Option Nat) (selfMatch : SelfMatch) :
    (∃ err, err ≠ .outOfBounds ∧
      ∀ withDistances, (e.queryFitted n selfMatch withDistances).result = .error err) ∨
    (1 ≤ n.getD e.config.neighbors ∧
      n.getD e.config.neighbors ≤ selfMatch.candidateCount s.data.rows ∧
      ∀ withDistances, (e.queryFitted n selfMatch withDistances).result = collect e.config.metric
        s.data s.data (n.getD e.config.neighbors) selfMatch withDistances) := by
  simp only [queryFitted_result hs]
  rcases e.resolveNeighbors_cases n (selfMatch.candidateCount s.data.rows) with
    ⟨err, hk, hin⟩ | ⟨hk, hpos, hle⟩
  · rw [hk]
    exact Or.inl ⟨err, hin, fun _ => rfl⟩
  · rw [hk]
    exact Or.inr ⟨hpos, hle, fun _ => rfl⟩

/-- An answer lists the rows that the candidates determine. -/
theorem rows_of_query {α : Type} [Element α] {x : Matrix α} {n : Option Nat} {withDistances : Bool}
    {found : Neighbors} (he : e.Reachable) (hs : e.fitted = some s) (hx : x.WellFormed)
    (hfound : (e.query x n withDistances).result = .ok found) :
    found.Shaped x.rows (n.getD e.config.neighbors) withDistances ∧ ∀ i < x.rows, ∃ cs,
      Measured e.config.metric s.data (x.narrowed.rowAt i) cs ∧
      found.Lists i (Candidate.chosen .include (n.getD e.config.neighbors) i cs) := by
  have hproper := he.proper hs
  rcases query_cases hs x n with ⟨err, -, hrefused⟩ | ⟨hpos, hle, hcolumns, hanswer⟩
  · cases (hrefused withDistances).symm.trans hfound
  · exact rows_of_collect hproper.wellFormed hx.narrowed hcolumns hproper.rows_pos hpos hle
      ((hanswer withDistances).symm.trans hfound)

/-- The rows of an answer are chosen from the candidates that were measured for the points. -/
theorem rows_of_queryFitted {n : Option Nat} {selfMatch : SelfMatch} {withDistances : Bool}
    {found : Neighbors} (he : e.Reachable) (hs : e.fitted = some s)
    (hfound : (e.queryFitted n selfMatch withDistances).result = .ok found) :
    found.Shaped s.data.rows (n.getD e.config.neighbors) withDistances ∧ ∀ i < s.data.rows, ∃ cs,
      Measured e.config.metric s.data (s.data.rowAt i) cs ∧
      found.Lists i (Candidate.chosen selfMatch (n.getD e.config.neighbors) i cs) := by
  have hproper := he.proper hs
  rcases queryFitted_cases hs n selfMatch with ⟨err, -, hrefused⟩ | ⟨hpos, hle, hanswer⟩
  · cases (hrefused withDistances).symm.trans hfound
  · exact rows_of_collect hproper.wellFormed hproper.wellFormed rfl hproper.rows_pos hpos hle
      ((hanswer withDistances).symm.trans hfound)

/-- A metric that can measure the stored points keeps queries in bounds. -/
theorem inBounds_query {α : Type} [Element α] {x : Matrix α} (he : e.Reachable)
    (hs : e.fitted = some s) (hmetric : e.config.metric.Measures s.data.columns)
    (hx : x.WellFormed) (n : Option Nat) (withDistances : Bool) :
    InBounds (e.query x n withDistances).result := by
  rcases query_cases hs x n with ⟨err, hin, hrefused⟩ | ⟨hpos, hle, hcolumns, hanswer⟩
  · rw [hrefused]
    exact fun h => hin (Except.error.inj h)
  · obtain ⟨found, hfound, -⟩ := exists_collect (he.proper hs).wellFormed hx.narrowed hcolumns
      hmetric hpos hle withDistances
    rw [hanswer, hfound]
    exact inBounds_ok found

theorem inBounds_queryFitted (he : e.Reachable) (hs : e.fitted = some s)
    (hmetric : e.config.metric.Measures s.data.columns) (n : Option Nat) (selfMatch : SelfMatch)
    (withDistances : Bool) : InBounds (e.queryFitted n selfMatch withDistances).result := by
  have hdata := (he.proper hs).wellFormed
  rcases queryFitted_cases hs n selfMatch with ⟨err, hin, hrefused⟩ | ⟨hpos, hle, hanswer⟩
  · rw [hrefused]
    exact fun h => hin (Except.error.inj h)
  · obtain ⟨found, hfound, -⟩ := exists_collect hdata hdata rfl hmetric hpos hle withDistances
    rw [hanswer, hfound]
    exact inBounds_ok found

/-- No call leaves the bounds as long as the metric can measure the stored points. -/
theorem Call.inBounds_outcome (he : e.Reachable) (hs : e.fitted = some s)
    (hmetric : e.config.metric.Measures s.data.columns) {call : Call} (hcall : call.WellFormed) :
    InBounds (call.outcome e) := by
  cases call with
  | query x n withDistances => exact (inBounds_query he hs hmetric hcall n withDistances).map _
  | queryFitted n selfMatch withDistances =>
    exact (inBounds_queryFitted he hs hmetric n selfMatch withDistances).map _
  | graph x n mode =>
    rw [outcome, graph_result, sampleCount_eq hs, ok_bind]
    refine InBounds.map _ ((inBounds_query he hs hmetric hcall n _).bind ?_)
    exact fun found _ => inBounds_toGraph found _ mode
  | graphFitted n mode selfMatch =>
    rw [outcome, graphFitted_result, sampleCount_eq hs, ok_bind]
    refine InBounds.map _ ((inBounds_queryFitted he hs hmetric n selfMatch _).bind ?_)
    exact fun found _ => inBounds_toGraph found _ mode

/-! ## The metric in force -/

/-- The metric in force passes its checks for the points that are stored, if there are any. -/
def MetricFits (e : Estimator) : Prop :=
  ∀ s, e.fitted = some s → e.config.metric.Fits s.data.columns

/-- A call that ends in an answer or in an error, and in an answer only if the metric in force
passes its checks. -/
structure Call.Checked (call : Call) (e : Estimator) : Prop where
  inBounds : InBounds (call.outcome e)
  passed : call.outcome e = .ok () →
    ∃ s, e.fitted = some s ∧ e.config.metric.Fits s.data.columns

/-- After a fit the metric would still pass, because the fit has checked it. -/
theorem metricFits_fit {α : Type} [Element α] (e : Estimator) {x : Matrix α} (hx : x.WellFormed)
    (allowed : Bool) : MetricFits (e.fit x allowed).1 := by
  intro s hs
  exact (prepare_eq_ok hx (prepare_of_fitted hs)).2

theorem metricFits_withNeighbors (e : Estimator) (k : Nat) :
    MetricFits (e.withNeighbors k) ↔ MetricFits e := Iff.rfl

/-- A new metric has to fit the stored points, which nobody checks. -/
theorem metricFits_withMetric (e : Estimator) (metric : Metric) :
    MetricFits (e.withMetric metric) ↔ ∀ s, e.fitted = some s → metric.Fits s.data.columns :=
  Iff.rfl

/-- A euclidean or Minkowski metric takes any exponent, also one that does not pass. -/
theorem metricFits_withExponent {e : Estimator} {p : Float}
    (hfamily : e.config.metric = .euclidean ∨ ∃ q, e.config.metric = .minkowski q) :
    MetricFits (e.withExponent p) ↔
      ∀ s, e.fitted = some s → (Metric.minkowski p).Fits s.data.columns := by
  have hstep : e.withExponent p = e.withMetric (.minkowski p) := by
    unfold withExponent
    rcases hfamily with hmetric | ⟨q, hmetric⟩ <;> rw [hmetric]
  rw [hstep, metricFits_withMetric]

/-- What can be reached while every change of the metric is to one that passes its checks for the
points that are stored then. -/
inductive Tended : Estimator → Prop
  | new : Tended {}
  | ofConfig {config : Config} {e : Estimator} (h : Estimator.ofConfig config = .ok e) : Tended e
  | withNeighbors {e : Estimator} (h : Tended e) (k : Nat) : Tended (e.withNeighbors k)
  | withMetric {e : Estimator} (h : Tended e) (metric : Metric)
      (hmetric : MetricFits (e.withMetric metric)) : Tended (e.withMetric metric)
  | withExponent {e : Estimator} (h : Tended e) (p : Float)
      (hmetric : MetricFits (e.withExponent p)) : Tended (e.withExponent p)
  | fit {e : Estimator} (h : Tended e) {α : Type} [Element α] (x : Matrix α)
      (hx : x.WellFormed) (allowed : Bool) : Tended (e.fit x allowed).1

/-- The query for the nearest stored point of each stored point. -/
def Call.probe : Call := .queryFitted (some 1) .include false

theorem Call.outcome_probe (he : e.Reachable) (hs : e.fitted = some s)
    (hmetric : e.config.metric.Measures s.data.columns) : Call.probe.outcome e = .ok () := by
  have hcount : 1 ≤ SelfMatch.candidateCount .include s.data.rows := (he.proper hs).rows_pos
  obtain ⟨found, hfound, -⟩ :=
    queryFitted_answers (n := some 1) he hs hmetric rfl le_rfl hcount false
  rw [Call.probe, Call.outcome, hfound]
  rfl

/-- The probe finds out about a metric that cannot measure the stored points. -/
theorem Call.outcome_probe_of_not_measures (he : e.Reachable) (hs : e.fitted = some s)
    (hmetric : ¬e.config.metric.Measures s.data.columns) :
    Call.probe.outcome e = .error .outOfBounds := by
  have hproper := he.proper hs
  have hcount : 1 ≤ SelfMatch.candidateCount .include s.data.rows := hproper.rows_pos
  have hsearch := search?_eq_none hproper.wellFormed hproper.wellFormed hmetric hproper.rows_pos
    hproper.rows_pos 1 .include
  have hk : e.resolveNeighbors (some 1) (SelfMatch.candidateCount .include s.data.rows) = .ok 1 :=
    resolveNeighbors_eq_ok e rfl le_rfl hcount
  rw [Call.probe, Call.outcome, queryFitted_result hs, hk, ok_bind, collect_eq_error hsearch]
  rfl

/-- As long as the metric fits, every call is checked. -/
theorem Call.checked_of_metricFits (he : e.Reachable) (hfits : MetricFits e) {call : Call}
    (hcall : call.WellFormed) : call.Checked e := by
  cases hs : e.fitted with
  | none =>
    refine ⟨?_, ?_⟩
    · rw [Call.outcome_of_not_fitted hs]
      exact nofun
    · intro hok
      rw [Call.outcome_of_not_fitted hs] at hok
      cases hok
  | some s =>
    exact ⟨Call.inBounds_outcome he hs (hfits s hs).measures hcall, fun _ => ⟨s, hs, hfits s hs⟩⟩

theorem metricFits_of_checked (he : e.Reachable) (hprobe : Call.probe.Checked e) :
    MetricFits e := by
  intro s hs
  by_cases hmetric : e.config.metric.Measures s.data.columns
  · obtain ⟨s', hs', hfits⟩ := hprobe.passed (Call.outcome_probe he hs hmetric)
    rw [hs, Option.some.injEq] at hs'
    rwa [hs']
  · exact absurd (Call.outcome_probe_of_not_measures he hs hmetric) hprobe.inBounds

/-- A call that leaves the bounds needs points with a single coordinate, of which the great-circle
distance takes two. -/
theorem Call.of_outOfBounds (he : e.Reachable) {call : Call} (hcall : call.WellFormed)
    (hout : call.outcome e = .error .outOfBounds) :
    ∃ s, e.fitted = some s ∧ e.config.metric = .haversine ∧ s.data.columns = 1 := by
  cases hs : e.fitted with
  | none =>
    rw [Call.outcome_of_not_fitted hs] at hout
    cases hout
  | some s =>
    have hmetric : ¬e.config.metric.Measures s.data.columns := by
      intro hmetric
      exact Call.inBounds_outcome he hs hmetric hcall hout
    rw [Metric.Measures, Classical.not_imp] at hmetric
    have hcolumns := (he.proper hs).columns_pos
    exact ⟨s, rfl, hmetric.1, by omega⟩

theorem Tended.reachable (h : Tended e) : e.Reachable := by
  induction h with
  | new => exact .new
  | ofConfig h => exact .ofConfig h
  | withNeighbors h k ih => exact ih.withNeighbors k
  | withMetric h metric hmetric ih => exact ih.withMetric metric
  | withExponent h p hmetric ih => exact ih.withExponent p
  | fit h x hx allowed ih => exact ih.fit x hx allowed

theorem Tended.metricFits (h : Tended e) : MetricFits e := by
  induction h with
  | new => exact nofun
  | ofConfig h =>
    intro s hs
    rw [fitted_of_ofConfig h] at hs
    cases hs
  | withNeighbors h k ih => exact (metricFits_withNeighbors _ k).mpr ih
  | withMetric h metric hmetric ih => exact hmetric
  | withExponent h p hmetric ih => exact hmetric
  | fit h x hx allowed ih => exact metricFits_fit _ hx allowed

/-- Whoever takes care of the metric has all calls checked, over the whole run. -/
theorem Tended.calls_checked (h : Tended e) {call : Call} (hcall : call.WellFormed) :
    call.Checked e :=
  Call.checked_of_metricFits h.reachable h.metricFits hcall

/-- All calls are checked exactly as long as the metric in force passes its checks, and all of them
stay in bounds unless it is the great-circle distance on points with a single coordinate. -/
theorem calls_checked_iff (he : e.Reachable) :
    ((∀ call : Call, call.WellFormed → call.Checked e) ↔ MetricFits e) ∧
    ((∃ call : Call, call.WellFormed ∧ call.outcome e = .error .outOfBounds) ↔
      ∃ s, e.fitted = some s ∧ e.config.metric = .haversine ∧ s.data.columns = 1) := by
  refine ⟨⟨?_, ?_⟩, ?_, ?_⟩
  · intro hcalls
    exact metricFits_of_checked he (hcalls Call.probe trivial)
  · intro hfits call hcall
    exact Call.checked_of_metricFits he hfits hcall
  · rintro ⟨call, hcall, hout⟩
    exact Call.of_outOfBounds he hcall hout
  · rintro ⟨s, hs, hmetric, hcolumns⟩
    refine ⟨Call.probe, trivial, Call.outcome_probe_of_not_measures he hs ?_⟩
    intro hmeasures
    have := hmeasures hmetric
    omega

theorem ofOverlapping_calls_checked :
    ((∀ call : Call, call.WellFormed → call.Checked ofOverlapping) ↔ MetricFits ofOverlapping) ∧
    ((∃ call : Call, call.WellFormed ∧ call.outcome ofOverlapping = .error .outOfBounds) ↔
      ∃ s, ofOverlapping.fitted = some s ∧ ofOverlapping.config.metric = .haversine ∧
        s.data.columns = 1) :=
  calls_checked_iff reachable_ofOverlapping

/-- A metric that comes after the points reaches the search unchecked. -/
theorem withMetric_leaves_bounds :
    (ofOverlapping.withMetric .haversine).Reachable ∧ Call.probe.WellFormed ∧
      Call.probe.outcome (ofOverlapping.withMetric .haversine) = .error .outOfBounds := by
  have hreachable : (ofOverlapping.withMetric .haversine).Reachable :=
    reachable_ofOverlapping.withMetric .haversine
  refine ⟨hreachable, trivial, ?_⟩
  refine Call.outcome_probe_of_not_measures hreachable fitted_ofOverlapping ?_
  intro hmeasures
  exact absurd (hmeasures rfl) (by decide)

end Estimator

end NeighborSearch
