import NeighborSearch.Proofs.Computations
import NeighborSearch.Proofs.Search

/-!
# The states of an estimator

What every operation does to an estimator and what its queries answer. All estimators that can be
reached hold proper points, and on these a query fails only for the reasons that it states.
-/

namespace NeighborSearch

namespace Estimator

variable {α : Type} [Element α]

/-- Events aside, points are stored after three checks and the conversion, in this order. -/
theorem prepare_result (e : Estimator) (x : Matrix α) (allowed : Bool) :
    (e.prepare x allowed).result =
      if x.rows = 0 ∨ x.columns = 0 then
        .error (.emptyInput ("cannot fit on a " ++ Nat.repr x.rows ++ "x"
          ++ Nat.repr x.columns ++ " matrix"))
      else (do
        e.config.validate
        e.config.metric.validateFeatures x.columns
        let data ← x.toFloat32 allowed
        .ok ⟨data, elementType α⟩) := by
  unfold prepare
  split_ifs
  · exact Traced.result_ofExcept _
  · simp only [Traced.result_bind, Traced.result_liftM, Traced.result_emit, Traced.result_pure,
      ok_bind]

/-- Events aside, a query checks the columns and the number of neighbors, converts the points and
searches. -/
theorem query_result {e : Estimator} {s : FittedSet} (hs : e.fitted = some s) (x : Matrix α)
    (k : Option Nat) (withDistances : Bool) :
    (e.query x k withDistances).result =
      if x.columns ≠ s.data.columns then
        .error (.sizeMismatch "n_features" s.data.columns x.columns)
      else (do
        let k ← e.resolveNeighbors k s.data.rows
        let queries ← x.toFloat32 true
        collect e.config.metric s.data queries k .include withDistances) := by
  simp only [query, fittedData, fittedSet, hs, Except.map, Traced.result_bind,
    Traced.result_liftM, ok_bind]
  split_ifs
  · exact Traced.result_ofExcept _
  · simp

theorem queryFitted_result {e : Estimator} {s : FittedSet} (hs : e.fitted = some s)
    (k : Option Nat) (selfMatch : SelfMatch) (withDistances : Bool) :
    (e.queryFitted k selfMatch withDistances).result = (do
      let k ← e.resolveNeighbors k (selfMatch.candidateCount s.data.rows)
      collect e.config.metric s.data s.data k selfMatch withDistances) := by
  simp [queryFitted, fittedData, fittedSet, hs, Except.map]

/-! ## Reachable states -/

/-- What can come of a new estimator by changing its configuration and fitting it, also when fits
fail. -/
inductive Reachable : Estimator → Prop
  | new : Reachable {}
  | ofConfig {config : Config} {e : Estimator} (h : Estimator.ofConfig config = .ok e) : Reachable e
  | withNeighbors {e : Estimator} (h : Reachable e) (k : Nat) : Reachable (e.withNeighbors k)
  | withMetric {e : Estimator} (h : Reachable e) (metric : Metric) : Reachable (e.withMetric metric)
  | withExponent {e : Estimator} (h : Reachable e) (p : Float) : Reachable (e.withExponent p)
  | fit {e : Estimator} (h : Reachable e) {α : Type} [Element α] (x : Matrix α)
      (hx : x.WellFormed) (allowed : Bool) : Reachable (e.fit x allowed).1

/-- Points as they are stored: in good form, and neither without rows nor without columns. -/
structure Proper (s : FittedSet) : Prop where
  wellFormed : s.data.WellFormed
  rows_pos : 0 < s.data.rows
  columns_pos : 0 < s.data.columns

theorem fit_fst (e : Estimator) (x : Matrix α) (allowed : Bool) :
    (e.fit x allowed).1 = { e with fitted := (e.prepare x allowed).result.toOption } := rfl

theorem fit_result (e : Estimator) (x : Matrix α) (allowed : Bool) :
    (e.fit x allowed).2.result = (e.prepare x allowed).result.map fun _ => () := rfl

theorem prepare_of_fitted {e : Estimator} {x : Matrix α} {allowed : Bool} {s : FittedSet}
    (hs : (e.fit x allowed).1.fitted = some s) : (e.prepare x allowed).result = .ok s := by
  rw [fit_fst] at hs
  cases hprepared : (e.prepare x allowed).result with
  | error err => simp [hprepared, Except.toOption] at hs
  | ok stored =>
    simp only [hprepared, Except.toOption, Option.some.injEq] at hs
    rw [hs]

/-- Points are stored only after the metric has passed its checks for them. -/
theorem prepare_eq_ok {e : Estimator} {x : Matrix α} {allowed : Bool} {s : FittedSet}
    (hx : x.WellFormed) (h : (e.prepare x allowed).result = .ok s) :
    Proper s ∧ e.config.metric.Fits s.data.columns := by
  rw [prepare_result] at h
  split_ifs at h with hempty
  cases hconfig : e.config.validate with
  | error err => simp [hconfig] at h
  | ok u =>
    cases hfeatures : e.config.metric.validateFeatures x.columns with
    | error err => simp [hconfig, hfeatures] at h
    | ok v =>
      cases hdata : x.toFloat32 allowed with
      | error err => simp [hconfig, hfeatures, hdata] at h
      | ok data =>
        simp only [hconfig, hfeatures, hdata, ok_bind, Except.ok.injEq] at h
        subst h
        obtain rfl := Matrix.toFloat32_eq_ok hdata
        refine ⟨⟨hx.narrowed, ?_, ?_⟩, ?_, hfeatures⟩
        · change 0 < x.rows
          omega
        · change 0 < x.columns
          omega
        · unfold Config.validate at hconfig
          split_ifs at hconfig
          exact hconfig

theorem withExponent_fitted (e : Estimator) (p : Float) :
    (e.withExponent p).fitted = e.fitted := by
  unfold withExponent
  split <;> rfl

theorem fitted_of_ofConfig {config : Config} {e : Estimator}
    (h : Estimator.ofConfig config = .ok e) : e.fitted = none := by
  unfold Estimator.ofConfig at h
  cases hvalid : config.validate with
  | error err => simp [hvalid, Except.map] at h
  | ok u =>
    simp only [hvalid, Except.map, Except.ok.injEq] at h
    subst h
    rfl

/-- Whatever has become of an estimator, its points are stored in good form. -/
theorem Reachable.proper {e : Estimator} (h : Reachable e) {s : FittedSet}
    (hs : e.fitted = some s) : Proper s := by
  induction h with
  | new => cases hs
  | ofConfig h =>
    rw [fitted_of_ofConfig h] at hs
    cases hs
  | withNeighbors h k ih => exact ih hs
  | withMetric h metric ih => exact ih hs
  | withExponent h p ih =>
    rw [withExponent_fitted] at hs
    exact ih hs
  | fit h x hx allowed ih => exact (prepare_eq_ok hx (prepare_of_fitted hs)).1

/-! ## A fitted estimator -/

/-- Four points on a line, of which three coincide. -/
def overlapping : Matrix Float32 := ⟨4, 1, #[4, 4, 4, 9]⟩

/-- The estimator fitted to these points. -/
def ofOverlapping : Estimator := (({} : Estimator).fit overlapping true).1

theorem reachable_ofOverlapping : Reachable ofOverlapping := .fit .new overlapping rfl true

theorem fitted_ofOverlapping :
    ofOverlapping.fitted = some ⟨overlapping.narrowed, .float32⟩ := rfl

theorem fits_ofOverlapping : ofOverlapping.config.metric.Fits 1 := ⟨rfl, rfl⟩

end Estimator

end NeighborSearch
