import NeighborSearch.Proofs.NotANumber

/-!
# Ties among reported distances

Candidates are ranked by their distances in binary64, and what is reported are these distances in
binary32. Rounding may make different distances equal. Then the nearer point comes first whatever
its index is, so equal reported distances are listed by index in exactly those rows in which all
points that rounding has tied have their indices in order.
-/

namespace NeighborSearch

/-! ## Rows of candidates -/

namespace Candidate

/-- The first candidate is nearer, but not by enough for the reported distances to show it. -/
def Merged (a b : Candidate) : Prop :=
  a.distance < b.distance ∧ (narrow a.distance == narrow b.distance) = true

/-- Neighbors at one reported distance are in the order of their indices, unless rounding has merged
them. -/
theorem Precedes.merged_or_index_lt {a b : Candidate} (h : a.Precedes b)
    (heq : (narrow a.distance == narrow b.distance) = true) : a.Merged b ∨ a.index < b.index := by
  rcases h with ⟨-, hnan⟩ | hlt | ⟨-, hindex⟩
  · rw [← isNaN_narrow, Float32.isNaN_eq_decide_eq_nan, decide_eq_true_iff] at hnan
    rw [hnan, Float32.beq_nan_eq_false] at heq
    cases heq
  · exact Or.inl ⟨hlt, heq⟩
  · exact Or.inr hindex

/-- Only what rounding has tied can be out of order. -/
theorem pairwise_ties_iff {row : List Candidate} (hrow : row.Pairwise Precedes) :
    (row.Pairwise fun a b => (narrow a.distance == narrow b.distance) = true → a.index < b.index) ↔
      row.Pairwise fun a b => a.Merged b → a.index < b.index := by
  constructor
  · intro h
    exact h.imp fun htie hmerged => htie hmerged.2
  · intro h
    refine (hrow.and h).imp ?_
    rintro a b ⟨hab, hmerged⟩ heq
    exact (hab.merged_or_index_lt heq).elim hmerged id

end Candidate

/-! ## Answers -/

/-- In row `i` of the answer, slots that report equal distances have their indices in order. -/
def Neighbors.TiesByIndex (found : Neighbors) (i : Nat) : Prop :=
  ∀ js ds values, found.indices.row? i = some js → found.distances = some ds →
    ds.row? i = some values →
    (values.zip js).Pairwise fun a b => (a.1 == b.1) = true → a.2 < b.2

theorem Neighbors.Lists.tiesByIndex_iff {found : Neighbors} {i : Nat} {row : List Candidate}
    (h : found.Lists i row) (hasked : found.distances.isSome = true) :
    found.TiesByIndex i ↔ row.Pairwise fun a b =>
      (narrow a.distance == narrow b.distance) = true → a.index < b.index := by
  obtain ⟨ds, hds⟩ := Option.isSome_iff_exists.mp hasked
  have hslots : (row.map fun c => narrow c.distance).zip (row.map Candidate.index)
      = row.map fun c => (narrow c.distance, c.index) := List.zip_map'
  constructor
  · intro hties
    have hpairs := hties _ ds _ h.indices hds (h.distances ds hds)
    rw [hslots] at hpairs
    exact List.pairwise_map.mp hpairs
  · intro hordered js ds' values hjs hds' hvalues
    cases h.indices.symm.trans hjs
    cases (h.distances ds' hds').symm.trans hvalues
    rw [hslots]
    exact List.pairwise_map.mpr hordered

/-- Every row of the answer lists its points in the order of their distances, and it has its ties in
the order of the indices exactly if rounding ties no two points of it in another order. -/
def Neighbors.TiedByRounding (found : Neighbors) (metric : Metric)
    (reference queries : Matrix Float32) : Prop :=
  ∀ i < queries.rows, ∃ query row, queries.row? i = some query ∧ found.Lists i row ∧
    (∀ c ∈ row, ∃ point, reference.row? c.index = some point ∧
      metric.distance? query point = some c.distance) ∧
    row.Pairwise Candidate.Precedes ∧
    (found.TiesByIndex i ↔ row.Pairwise fun a b => a.Merged b → a.index < b.index)

namespace Estimator

/-- The chosen candidates are listed in order, and rounding may tie some of them. -/
theorem tiedByRounding_of_lists {metric : Metric} {reference queries : Matrix Float32} {k : Nat}
    {selfMatch : SelfMatch} {found : Neighbors} (hqueries : queries.WellFormed)
    (hshaped : found.Shaped queries.rows k true)
    (hlists : ∀ i < queries.rows, ∃ cs, Measured metric reference (queries.rowAt i) cs ∧
      found.Lists i (Candidate.chosen selfMatch k i cs)) :
    found.TiedByRounding metric reference queries := by
  intro i hi
  obtain ⟨cs, hcs, hrow⟩ := hlists i hi
  have hsub := Candidate.chosen_sublist selfMatch k i cs
  have hordered := (hcs.valid.ranking.pairwise_precedes
    (Candidate.pairwise_lt_ranking hcs.valid)).sublist hsub
  refine ⟨_, _, Matrix.row?_eq hqueries hi, hrow, ?_, hordered, ?_⟩
  · intro c hc
    exact hcs.distance_eq (Candidate.mem_ranking.mp (hsub.subset hc))
  · exact (hrow.tiesByIndex_iff hshaped.asked).trans (Candidate.pairwise_ties_iff hordered)

/-- What an answer says about ties, whichever way the estimator was asked. -/
theorem answers_tied_by_rounding {e : Estimator} {s : FittedSet} (he : e.Reachable)
    (hs : e.fitted = some s) {n : Option Nat} {found : Neighbors} :
    (∀ {α : Type} [Element α] (x : Matrix α), x.WellFormed →
      (e.query x n true).result = .ok found →
        found.TiedByRounding e.config.metric s.data x.narrowed) ∧
    ∀ selfMatch, (e.queryFitted n selfMatch true).result = .ok found →
      found.TiedByRounding e.config.metric s.data s.data := by
  constructor
  · intro α _ x hx hfound
    obtain ⟨hshaped, hlists⟩ := rows_of_query he hs hx hfound
    exact tiedByRounding_of_lists hx.narrowed hshaped hlists
  · intro selfMatch hfound
    obtain ⟨hshaped, hlists⟩ := rows_of_queryFitted he hs hfound
    exact tiedByRounding_of_lists (he.proper hs).wellFormed hshaped hlists

theorem overlapping_tied_by_rounding :
    ∃ found, (ofOverlapping.queryFitted (some 3) .include true).result = .ok found ∧
      found.TiedByRounding (.minkowski 2) overlapping.narrowed overlapping.narrowed := by
  have hcount : 3 ≤ SelfMatch.candidateCount .include 4 := by decide
  obtain ⟨found, hfound, -⟩ := queryFitted_answers (n := some 3) reachable_ofOverlapping
    fitted_ofOverlapping fits_ofOverlapping.measures rfl (by decide) hcount true
  exact ⟨found, hfound,
    (answers_tied_by_rounding reachable_ofOverlapping fitted_ofOverlapping).2 .include hfound⟩

/-- Two neighboring points. From far away they are reported at the same distance. -/
def neighboring : Matrix Float32 := ⟨2, 1, #[-1, 0]⟩

/-- The point `2 ^ 24` lies at distance `2 ^ 24 + 1` from the first point and `2 ^ 24` from the
second. The first of these distances is no binary32 number and is reported as the second one. -/
theorem neighboring_ties_reversed :
    let e := (({} : Estimator).fit neighboring true).1
    e.Reachable ∧
    ∃ found, (e.query (⟨1, 1, #[16777216]⟩ : Matrix Float32) (some 2) true).result = .ok found ∧
      ¬found.TiesByIndex 0 := by
  refine ⟨.fit .new neighboring rfl true, ?_⟩
  set answer := ((({} : Estimator).fit neighboring true).1.query
    (⟨1, 1, #[16777216]⟩ : Matrix Float32) (some 2) true).result
  have hindices : answer.map (·.indices.row? 0) = .ok (some [1, 0]) := by decide +kernel
  have hdistances : answer.map (·.distances.map (·.row? 0))
      = .ok (some (some [16777216, 16777216])) := by decide +kernel
  cases hfound : answer with
  | error err =>
    rw [hfound] at hindices
    cases hindices
  | ok found =>
    rw [hfound] at hindices hdistances
    obtain ⟨ds, hds, hvalues⟩ := Option.map_eq_some_iff.mp (Except.ok.inj hdistances)
    refine ⟨found, rfl, ?_⟩
    intro hties
    exact absurd (hties _ ds _ (Except.ok.inj hindices) hds hvalues) (by decide)

end Estimator

end NeighborSearch
