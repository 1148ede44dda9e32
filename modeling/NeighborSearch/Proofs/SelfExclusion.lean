import NeighborSearch.Proofs.Answer

/-!
# Neighbors other than the point itself

A stored point that is not to count as a neighbor of itself gets its nearest other points, unless so
many points coincide with it that it misses the cut; then the first candidate is dropped in its
place. The lists for different numbers of neighbors nest as long as both were made in the same way.
-/

namespace NeighborSearch

/-! ## The neighbors that are left -/

/-- `ranked` lists all rows of `reference` as candidates for its row `i`. -/
def Ranks (metric : Metric) (reference : Matrix Float32) (i : Nat) (cs ranked : List Candidate) :
    Prop :=
  ∃ query, reference.row? i = some query ∧ Measured metric reference query cs ∧
    Candidate.Leading reference.rows cs ranked

/-- `row` has `k` neighbors of row `i` of `reference`, none of them the row itself. -/
structure NearestOthers (metric : Metric) (reference : Matrix Float32) (i k : Nat)
    (row : List Candidate) : Prop where
  ranked : ∃ cs ranked, Ranks metric reference i cs ranked ∧
    ((∃ c ∈ ranked.take (k + 1), c.index = i) →
      Candidate.Leading k (cs.filter (·.index ≠ i)) row) ∧
    ((¬∃ c ∈ ranked.take (k + 1), c.index = i) → row = (ranked.drop 1).take k)
  length_eq : row.length = k
  distinct : (row.map Candidate.index).Nodup
  others : ∀ c ∈ row, c.index < reference.rows ∧ c.index ≠ i
  ordered : row.Pairwise Candidate.Precedes

variable {metric : Metric} {reference : Matrix Float32} {query : Point} {cs : List Candidate}
  {i k k' : Nat}

/-- The ranking of the candidates ranks all stored points seen from one of them. -/
theorem Measured.ranks (h : Measured metric reference query cs)
    (hquery : reference.row? i = some query) :
    Ranks metric reference i cs (Candidate.ranking cs) := by
  have hall := Candidate.leading_take_ranking h.valid le_rfl
  rw [List.take_of_length_le (Candidate.length_ranking cs).le, h.length_eq] at hall
  exact ⟨query, hquery, h, hall⟩

/-- Leaving a point out of one candidate more gives its nearest others. -/
theorem Measured.nearestOthers (h : Measured metric reference query cs)
    (hquery : reference.row? i = some query) (hpos : 1 ≤ k) (hk : k ≤ reference.rows - 1) :
    NearestOthers metric reference i k
      (Candidate.leaveOut i ((Candidate.ranking cs).take (k + 1))) := by
  have hlength := h.length_eq
  have hk' : k < cs.length := by omega
  have hcut := h.valid.ranking.sublist (List.take_sublist (k + 1) _)
  have hrow := hcut.sublist (Candidate.leaveOut_sublist i _)
  refine ⟨⟨cs, _, h.ranks hquery, ?_, ?_⟩, ?_, hrow.distinct, ?_, ?_⟩
  · intro hown
    exact Candidate.leading_leaveOut h.valid hk' hown
  · intro hown
    exact Candidate.leaveOut_of_not_ranksWithin hown
  · rw [Candidate.length_leaveOut, Candidate.length_take_ranking hk']
    omega
  · intro c hc
    have hcs : c ∈ cs := Candidate.mem_ranking.mp
      (List.mem_of_mem_take ((Candidate.leaveOut_sublist i _).subset hc))
    exact ⟨h.index_lt hcs, Candidate.index_ne_of_mem_leaveOut hcut.distinct hc⟩
  · have hordered := h.valid.ranking.pairwise_precedes (Candidate.pairwise_lt_ranking h.valid)
    exact hordered.sublist ((Candidate.leaveOut_sublist i _).trans (List.take_sublist _ _))

namespace Estimator

variable {e : Estimator} {s : FittedSet}

/-- Asking every stored point for other points: there are `s.data.rows - 1` of them, a number that
is never below zero, and only more neighbors than that are refused. -/
theorem queryFitted_lists_others (he : e.Reachable) (hs : e.fitted = some s) (hpos : 1 ≤ k)
    (withDistances : Bool) :
    1 ≤ s.data.rows ∧
    (e.config.metric.Fits s.data.columns → k ≤ s.data.rows - 1 →
      ∃ found, (e.queryFitted (some k) .exclude withDistances).result = .ok found ∧
        found.Shaped s.data.rows k withDistances ∧
        ∀ i < s.data.rows, ∃ row, found.Lists i row ∧
          NearestOthers e.config.metric s.data i k row) ∧
    (s.data.rows - 1 < k →
      (e.queryFitted (some k) .exclude withDistances).result =
        .error (.invalidHyperparameter "n_neighbors" (Nat.repr k)
          ("<= " ++ Nat.repr (s.data.rows - 1) ++ " available candidates"))) := by
  have hproper := he.proper hs
  refine ⟨hproper.rows_pos, ?_, ?_⟩
  · intro hmetric hk
    have hcount : k ≤ SelfMatch.candidateCount .exclude s.data.rows := hk
    obtain ⟨found, hfound, hshaped, hrows⟩ :=
      queryFitted_answers (n := some k) he hs hmetric.measures rfl hpos hcount withDistances
    refine ⟨found, hfound, hshaped, ?_⟩
    intro i hi
    obtain ⟨cs, hcs, hlists⟩ := hrows i hi
    exact ⟨_, hlists, hcs.nearestOthers (Matrix.row?_eq hproper.wellFormed hi) hpos hk⟩
  · intro hk
    have hcount : SelfMatch.candidateCount .exclude s.data.rows < k := hk
    rw [queryFitted_result hs, resolveNeighbors_eq_error (n := some k) e rfl hpos hcount]
    rfl

theorem overlapping_lists_others :
    (∃ found, (ofOverlapping.queryFitted (some 2) .exclude true).result = .ok found ∧
      found.Shaped 4 2 true ∧ ∀ i < 4, ∃ row, found.Lists i row ∧
        NearestOthers (.minkowski 2) overlapping.narrowed i 2 row) ∧
    (ofOverlapping.queryFitted (some 4) .exclude true).result =
      .error (.invalidHyperparameter "n_neighbors" "4" "<= 3 available candidates") :=
  ⟨(queryFitted_lists_others (k := 2) reachable_ofOverlapping fitted_ofOverlapping (by decide)
      true).2.1 fits_ofOverlapping (by decide),
    (queryFitted_lists_others (k := 4) reachable_ofOverlapping fitted_ofOverlapping (by decide)
      true).2.2 (by decide)⟩

end Estimator

end NeighborSearch
