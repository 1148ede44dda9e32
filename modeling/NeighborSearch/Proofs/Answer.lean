import NeighborSearch.Proofs.Estimator

/-!
# Answers

An answer lists a row of candidates for every query point. The rows are those of the search, so a
query that is asked for an admissible number of neighbors answers with the rows that the candidates
determine.
-/

namespace NeighborSearch

namespace Neighbors

/-- The answer has `rows` rows of `k` neighbors, with distances if they were asked for. -/
structure Shaped (found : Neighbors) (rows k : Nat) (withDistances : Bool) : Prop where
  shape : found.shape = (rows, k)
  wellFormed : found.indices.WellFormed
  asked : found.distances.isSome = withDistances
  distances : ∀ ds, found.distances = some ds → ds.shape = (rows, k) ∧ ds.WellFormed

/-- Row `i` of the answer lists these candidates. -/
structure Lists (found : Neighbors) (i : Nat) (row : List Candidate) : Prop where
  indices : found.indices.row? i = some (row.map Candidate.index)
  distances : ∀ ds, found.distances = some ds →
    ds.row? i = some (row.map fun c => narrow c.distance)

/-- The answer with the given rows. -/
def ofTable (k : Nat) (withDistances : Bool) (table : List (List Candidate)) : Neighbors :=
  ⟨.layout k (table.map (·.map Candidate.index)),
    if withDistances then some (.layout k (table.map (·.map fun c => narrow c.distance)))
    else none⟩

variable {k : Nat} {table : List (List Candidate)}

/-- An answer made from rows of equal length has their shape. -/
theorem shaped_ofTable (hrows : ∀ row ∈ table, row.length = k) (withDistances : Bool) :
    (ofTable k withDistances table).Shaped table.length k withDistances := by
  refine ⟨?_, Matrix.layout_wellFormed (Matrix.length_of_mem_map _ hrows), ?_, ?_⟩
  · simp [shape, Matrix.shape, ofTable, Matrix.layout]
  · cases withDistances <;> rfl
  · intro ds hds
    cases withDistances with
    | false => cases hds
    | true =>
      cases hds
      exact ⟨by simp [Matrix.shape, Matrix.layout],
        Matrix.layout_wellFormed (Matrix.length_of_mem_map _ hrows)⟩

/-- An answer lists the rows that it is made from. -/
theorem lists_ofTable (hrows : ∀ row ∈ table, row.length = k) (withDistances : Bool) {i : Nat}
    {row : List Candidate} (hi : table[i]? = some row) :
    (ofTable k withDistances table).Lists i row := by
  have hmap : ∀ {β : Type} (f : Candidate → β), (table.map (·.map f))[i]? = some (row.map f) := by
    intro β f
    rw [List.getElem?_map, hi, Option.map_some]
  refine ⟨Matrix.row?_layout (Matrix.length_of_mem_map _ hrows) (hmap _), ?_⟩
  intro ds hds
  cases withDistances with
  | false => cases hds
  | true =>
    cases hds
    exact Matrix.row?_layout (Matrix.length_of_mem_map _ hrows) (hmap _)

end Neighbors

namespace Estimator

variable {metric : Metric} {reference queries : Matrix Float32} {k : Nat} {selfMatch : SelfMatch}

/-- A search that finds rows of equal length is answered by these rows. -/
theorem collect_eq {table : List (List Candidate)}
    (hsearch : search? metric reference queries k selfMatch = some table)
    (hrows : ∀ row ∈ table, row.length = k) (withDistances : Bool) :
    collect metric reference queries k selfMatch withDistances
      = .ok (.ofTable k withDistances table) := by
  have hindices := Matrix.ofArray_eq_layout (Matrix.length_of_mem_map Candidate.index hrows)
  have hdistances := Matrix.ofArray_eq_layout
    (Matrix.length_of_mem_map (fun c => narrow c.distance) hrows)
  rw [List.length_map, ← List.map_flatten] at hindices hdistances
  unfold collect
  simp only [hsearch, orOutOfBounds, ok_bind, hindices, hdistances]
  cases withDistances <;> rfl

theorem collect_eq_error (hsearch : search? metric reference queries k selfMatch = none)
    (withDistances : Bool) :
    collect metric reference queries k selfMatch withDistances = .error .outOfBounds := by
  unfold collect
  rw [hsearch]
  rfl

theorem length_chosen {cs : List Candidate} (hpos : 1 ≤ k)
    (hk : k ≤ selfMatch.candidateCount cs.length) (i : Nat) :
    (Candidate.chosen selfMatch k i cs).length = k := by
  match selfMatch with
  | .include => exact Candidate.length_take_ranking hk
  | .exclude =>
    have hk : k ≤ cs.length - 1 := hk
    rw [Candidate.chosen, Candidate.length_leaveOut, Candidate.length_take_ranking (by omega)]
    omega

/-- Points that can be measured have an answer, whose rows are chosen from the measured candidates.
-/
theorem exists_collect (href : reference.WellFormed) (hqueries : queries.WellFormed)
    (hcolumns : queries.columns = reference.columns) (hmetric : metric.Measures reference.columns)
    (hpos : 1 ≤ k) (hk : k ≤ selfMatch.candidateCount reference.rows) (withDistances : Bool) :
    ∃ found, collect metric reference queries k selfMatch withDistances = .ok found ∧
      found.Shaped queries.rows k withDistances ∧ ∀ i < queries.rows, ∃ cs,
        Measured metric reference (queries.rowAt i) cs ∧
        found.Lists i (Candidate.chosen selfMatch k i cs) := by
  obtain ⟨table, hsearch, hlength, hrows⟩ :=
    exists_search href hqueries hcolumns hmetric k selfMatch
  have hlengths : ∀ row ∈ table, row.length = k := by
    intro row hrow
    obtain ⟨i, hi, rfl⟩ := List.getElem_of_mem hrow
    obtain ⟨cs, hcs, hi⟩ := hrows i (hlength ▸ hi)
    rw [(List.getElem?_eq_some_iff.mp hi).2]
    exact length_chosen hpos (hcs.length_eq ▸ hk) i
  refine ⟨_, collect_eq hsearch hlengths withDistances, ?_, ?_⟩
  · rw [← hlength]
    exact Neighbors.shaped_ofTable hlengths withDistances
  · intro i hi
    obtain ⟨cs, hcs, hi⟩ := hrows i hi
    exact ⟨cs, hcs, Neighbors.lists_ofTable hlengths withDistances hi⟩

/-- An answer lists the rows that the candidates determine, also if it took no measuring to give it
because there was no query point. -/
theorem rows_of_collect (href : reference.WellFormed) (hqueries : queries.WellFormed)
    (hcolumns : queries.columns = reference.columns) (hrows : 0 < reference.rows) (hpos : 1 ≤ k)
    (hk : k ≤ selfMatch.candidateCount reference.rows) {withDistances : Bool} {found : Neighbors}
    (h : collect metric reference queries k selfMatch withDistances = .ok found) :
    found.Shaped queries.rows k withDistances ∧ ∀ i < queries.rows, ∃ cs,
      Measured metric reference (queries.rowAt i) cs ∧
      found.Lists i (Candidate.chosen selfMatch k i cs) := by
  by_cases hmetric : metric.Measures reference.columns
  · obtain ⟨found', hfound', hanswer⟩ :=
      exists_collect href hqueries hcolumns hmetric hpos hk withDistances
    cases h.symm.trans hfound'
    exact hanswer
  · rcases Nat.eq_zero_or_pos queries.rows with hnone | hsome
    · have hsearch : search? metric reference queries k selfMatch = some [] := by
        rw [search?_eq href hqueries, hnone]
        rfl
      rw [collect_eq hsearch (fun row hrow => absurd hrow List.not_mem_nil), Except.ok.injEq] at h
      rw [← h, hnone]
      exact ⟨Neighbors.shaped_ofTable (fun row hrow => absurd hrow List.not_mem_nil) withDistances,
        fun i hi => absurd hi (Nat.not_lt_zero i)⟩
    · rw [collect_eq_error (search?_eq_none href hqueries hmetric hrows hsome k selfMatch)] at h
      cases h

/-! ## Queries -/

theorem resolveNeighbors_eq_ok (e : Estimator) {n : Option Nat} {candidates : Nat}
    (hn : n.getD e.config.neighbors = k) (hpos : 1 ≤ k) (hk : k ≤ candidates) :
    e.resolveNeighbors n candidates = .ok k := by
  simp only [resolveNeighbors, hn]
  rw [if_neg (by omega), if_neg (by omega)]

/-- More neighbors than candidates are refused, and the message says how many there are. -/
theorem resolveNeighbors_eq_error (e : Estimator) {n : Option Nat} {candidates : Nat}
    (hn : n.getD e.config.neighbors = k) (hpos : 1 ≤ k) (hk : candidates < k) :
    e.resolveNeighbors n candidates = .error
      (Config.neighborsError k ("<= " ++ Nat.repr candidates ++ " available candidates")) := by
  simp only [resolveNeighbors, hn]
  rw [if_neg (by omega), if_pos hk]

variable {e : Estimator} {s : FittedSet} {n : Option Nat}

/-- A query for the stored points is answered if the metric can measure them and the candidates
suffice. -/
theorem queryFitted_answers (he : e.Reachable) (hs : e.fitted = some s)
    (hmetric : e.config.metric.Measures s.data.columns) (hn : n.getD e.config.neighbors = k)
    (hpos : 1 ≤ k) (hk : k ≤ selfMatch.candidateCount s.data.rows) (withDistances : Bool) :
    ∃ found, (e.queryFitted n selfMatch withDistances).result = .ok found ∧
      found.Shaped s.data.rows k withDistances ∧ ∀ i < s.data.rows, ∃ cs,
        Measured e.config.metric s.data (s.data.rowAt i) cs ∧
        found.Lists i (Candidate.chosen selfMatch k i cs) := by
  have hdata := (he.proper hs).wellFormed
  rw [queryFitted_result hs, resolveNeighbors_eq_ok e hn hpos hk, ok_bind]
  exact exists_collect hdata hdata rfl hmetric hpos hk withDistances

/-- A query for other points is answered under the same conditions, if their elements can be
converted. -/
theorem query_answers {α : Type} [Element α] {x : Matrix α} {q : Matrix Float32}
    (he : e.Reachable) (hs : e.fitted = some s)
    (hmetric : e.config.metric.Measures s.data.columns) (hx : x.WellFormed)
    (hcolumns : x.columns = s.data.columns) (hq : x.toFloat32 true = .ok q)
    (hn : n.getD e.config.neighbors = k) (hpos : 1 ≤ k) (hk : k ≤ s.data.rows)
    (withDistances : Bool) :
    ∃ found, (e.query x n withDistances).result = .ok found ∧
      found.Shaped q.rows k withDistances ∧ ∀ i < q.rows, ∃ cs,
        Measured e.config.metric s.data (q.rowAt i) cs ∧
        found.Lists i (Candidate.chosen .include k i cs) := by
  have hdata := (he.proper hs).wellFormed
  have hcount : k ≤ SelfMatch.candidateCount .include s.data.rows := hk
  rw [query_result hs, if_neg (not_not.mpr hcolumns), resolveNeighbors_eq_ok e hn hpos hk,
    ok_bind, hq, ok_bind]
  obtain rfl := Matrix.toFloat32_eq_ok hq
  exact exists_collect hdata hx.narrowed hcolumns hmetric hpos hcount withDistances

end Estimator

end NeighborSearch
