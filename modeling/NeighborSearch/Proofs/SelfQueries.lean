import NeighborSearch.Proofs.Fitting

/-!
# Asking for the stored points

The points that were stored can be handed in again as query points, or the estimator can be asked
for the neighbors of what it holds. Both ways pass or fail the same checks and compare the same
points, so they give the same answer.
-/

namespace NeighborSearch

namespace Estimator

variable {α : Type} [Element α]

/-- It does not matter who hands in the stored points, whatever the configuration is by now. -/
theorem query_eq_queryFitted {e : Estimator} {x : Matrix α} {s : FittedSet}
    (hs : e.fitted = some s) (hdata : s.data = x.narrowed) (hx : x.Storable true) (n : Option Nat)
    (withDistances : Bool) :
    (e.query x n withDistances).result = (e.queryFitted n .include withDistances).result := by
  have hcolumns : x.columns = s.data.columns := by
    rw [hdata]
    rfl
  have hqueries : x.toFloat32 true = .ok s.data := Matrix.toFloat32_eq_ok_iff.mpr ⟨hx, hdata⟩
  rw [query_result hs, queryFitted_result hs, if_neg (not_not.mpr hcolumns), hqueries]
  rfl

theorem fit_eq_ok {e : Estimator} {x : Matrix α} {allowed : Bool}
    (h : (e.fit x allowed).2.result = .ok ()) :
    x.Storable allowed ∧
      (e.fit x allowed).1 = { e with fitted := some ⟨x.narrowed, elementType α⟩ } := by
  rcases e.fit_cases x allowed with ⟨haccepts, -, hstate⟩ | ⟨-, ⟨err, herr, -⟩, -⟩
  · exact ⟨haccepts.storable, hstate⟩
  · rw [herr] at h
    cases h

/-- Asking with the stored points gives the graph of the stored points. -/
theorem graph_eq_graphFitted {e : Estimator} {x : Matrix α} {s : FittedSet}
    (hs : e.fitted = some s) (hdata : s.data = x.narrowed) (hx : x.Storable true) (n : Option Nat)
    (mode : GraphMode) :
    (e.index.graph x n mode).result = (e.index.graphFitted n mode .include).result := by
  rw [graph_result, graphFitted_result, query_eq_queryFitted hs hdata hx]

end Estimator

/-- Events aside, the whole run is a fit and one of two graphs. -/
theorem neighborGraph_result {α : Type} [Element α] (x : Matrix α) (k : Nat) (mode : GraphMode)
    (includeSelf : Bool) (metric : Metric) :
    (neighborGraph x k mode includeSelf metric).result = (do
      let e := (({} : Estimator).withNeighbors k).withMetric metric
      (e.fit x true).2.result
      if includeSelf then ((e.fit x true).1.index.graph x none mode).result
      else ((e.fit x true).1.index.graphFitted none mode .include).result) := by
  cases includeSelf <;> exact Traced.result_bind _ _

namespace Estimator

/-- Handing in the fitted points and asking for the stored ones are the same query, and the neighbor
graph of a matrix is the same either way. -/
theorem self_queries_agree {α : Type} [Element α] (x : Matrix α) :
    (∀ e : Estimator, (e.fit x true).2.result = .ok () → ∀ n withDistances,
      ((e.fit x true).1.query x n withDistances).result
        = ((e.fit x true).1.queryFitted n .include withDistances).result) ∧
    ∀ k mode metric,
      (neighborGraph x k mode true metric).result = (neighborGraph x k mode false metric).result := by
  constructor
  · intro e h n withDistances
    obtain ⟨hstorable, hstate⟩ := fit_eq_ok h
    exact query_eq_queryFitted (congrArg fitted hstate) rfl hstorable n withDistances
  · intro k mode metric
    rw [neighborGraph_result, neighborGraph_result]
    dsimp only
    cases hfit : (((({} : Estimator).withNeighbors k).withMetric metric).fit x true).2.result with
    | error err => rfl
    | ok u =>
      obtain ⟨hstorable, hstate⟩ := fit_eq_ok hfit
      exact graph_eq_graphFitted (congrArg fitted hstate) rfl hstorable none mode

theorem overlapping_self_queries_agree :
    (ofOverlapping.query overlapping (some 2) true).result
      = (ofOverlapping.queryFitted (some 2) .include true).result ∧
    (neighborGraph overlapping 7 .distance true .cosine).result
      = (neighborGraph overlapping 7 .distance false .cosine).result :=
  ⟨(self_queries_agree overlapping).1 {} rfl (some 2) true,
    (self_queries_agree overlapping).2 7 .distance .cosine⟩

end Estimator

end NeighborSearch
