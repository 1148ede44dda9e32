import NeighborSearch.Proofs.SelfQueries
import NeighborSearch.Proofs.Widening

/-!
# Points in two forms

Points in binary32 may as well be handed in as the equal points in binary64. Both forms are stored
as the same points, so an estimator that was fitted to either answers every query alike; all that
tells them apart is the element type on record. Infinity is the exception. It is stored and looked up
in binary32, where nothing is converted, but it lies outside the range that the conversion from
binary64 accepts.
-/

namespace NeighborSearch

namespace Matrix

variable {x : Matrix Float32}

/-- The same points in binary64. -/
def widened (x : Matrix Float32) : Matrix Float := x.map widen

/-- No element is infinite. -/
def NoInfinity (x : Matrix Float32) : Prop := ∀ v ∈ x.data, v.isInf = false

instance (x : Matrix Float32) : Decidable x.NoInfinity :=
  inferInstanceAs (Decidable (∀ v ∈ x.data, v.isInf = false))

theorem narrowed_float32 (x : Matrix Float32) : x.narrowed = x := by
  have hid : (fun v : Float32 => narrow (Element.toFloat v)) = id := funext narrow_widen
  simp only [narrowed, map, hid, Array.map_id]

/-- Binary32 numbers survive the way through binary64. -/
theorem narrowed_widened (x : Matrix Float32) : x.widened.narrowed = x := by
  have hid : (fun v : Float => narrow (Element.toFloat v)) ∘ widen = id := funext narrow_widen
  simp only [narrowed, widened, map, Array.map_map, hid, Array.map_id]

/-- Points in binary32 are taken as they are. -/
theorem toFloat32_float32 (x : Matrix Float32) (allowed : Bool) : x.toFloat32 allowed = .ok x :=
  toFloat32_eq_ok_iff.mpr ⟨Or.inl rfl, (narrowed_float32 x).symm⟩

/-- Among binary32 numbers, only infinities are refused when they come as binary64. -/
theorem find?_widened (x : Matrix Float32) :
    (x.widened.data.toList.map Element.toFloat).find? outsideFloat32
      = (x.data.toList.find? Float32.isInf).map widen := by
  have hcomp : outsideFloat32 ∘ widen = Float32.isInf := funext outsideFloat32_widen
  rw [← hcomp, ← List.find?_map]
  simp only [widened, map, Array.toList_map, List.map_map]
  rfl

/-- Without infinities the wide form is converted back. -/
theorem toFloat32_widened (h : x.NoInfinity) : x.widened.toFloat32 true = .ok x := by
  have hfind : x.data.toList.find? Float32.isInf = none := by
    rw [List.find?_eq_none]
    intro v hv
    rw [h v (Array.mem_toList_iff.mp hv)]
    exact Bool.false_ne_true
  have htype : elementType Float ≠ .float32 := by decide
  rw [toFloat32, if_neg htype, if_neg (by decide), find?_widened, hfind]
  exact congrArg _ (narrowed_widened x)

/-- Among the infinite elements, the first one is named in the refusal. -/
theorem toFloat32_widened_error (h : ¬x.NoInfinity) : ∃ v ∈ x.data, v.isInf = true ∧
    x.widened.toFloat32 true = .error (conversionError .float64 (rangeReason (widen v))) := by
  have htype : elementType Float ≠ .float32 := by decide
  rw [toFloat32, if_neg htype, if_neg (by decide), find?_widened]
  cases hfind : x.data.toList.find? Float32.isInf with
  | none =>
    rw [List.find?_eq_none] at hfind
    refine absurd ?_ h
    intro v hv
    exact Bool.eq_false_iff.mpr (hfind v (Array.mem_toList_iff.mpr hv))
  | some v =>
    exact ⟨v, Array.mem_toList_iff.mp (List.mem_of_find?_eq_some hfind), List.find?_some hfind, rfl⟩

end Matrix

namespace Estimator

/-! ## The same points -/

/-- `e'` is configured as `e` is and holds the same points, whatever they were given in. -/
structure SamePoints (e e' : Estimator) : Prop where
  config : e'.config = e.config
  data : e'.fitted.map FittedSet.data = e.fitted.map FittedSet.data

theorem fittedData_eq (e : Estimator) : e.fittedData
    = (e.fitted.map FittedSet.data).elim (.error (.notFitted displayName)) .ok := by
  unfold fittedData fittedSet
  cases e.fitted <;> rfl

section SamePoints

variable {e e' : Estimator} (h : e.SamePoints e')
include h

theorem SamePoints.fittedData : e'.fittedData = e.fittedData := by
  rw [fittedData_eq, fittedData_eq, h.data]

/-- Estimators with the same points answer queries alike. -/
theorem SamePoints.query {α : Type} [Element α] (x : Matrix α) (n : Option Nat)
    (withDistances : Bool) : e'.query x n withDistances = e.query x n withDistances := by
  unfold Estimator.query resolveNeighbors
  rw [h.fittedData, h.config]

theorem SamePoints.queryFitted (n : Option Nat) (selfMatch : SelfMatch) (withDistances : Bool) :
    e'.queryFitted n selfMatch withDistances = e.queryFitted n selfMatch withDistances := by
  unfold Estimator.queryFitted resolveNeighbors
  rw [h.fittedData, h.config]

/-- So they give the same answers to everything that can be asked of an index, graphs included. -/
theorem SamePoints.index : e'.index = e.index := by
  unfold Estimator.index sampleCount
  rw [h.fittedData]
  congr 1
  · funext α _ x n withDistances
    exact h.query x n withDistances
  · funext n selfMatch withDistances
    exact h.queryFitted n selfMatch withDistances

theorem SamePoints.configured (settings : List Setting) :
    (e.configured settings).SamePoints (e'.configured settings) := by
  refine ⟨configured_config h.config settings, ?_⟩
  rw [configured_fitted, configured_fitted]
  exact h.data

end SamePoints

/-! ## Fitting either form -/

variable {x : Matrix Float32}

/-- The wide form stores the same points, though it is noted as binary64. -/
theorem prepare_widened (e : Estimator) (hx : x.NoInfinity) (allowed : Bool) :
    (e.prepare x.widened true).result
      = (e.prepare x allowed).result.map fun s => ⟨s.data, .float64⟩ := by
  have hshape : x.widened.rows = x.rows ∧ x.widened.columns = x.columns := ⟨rfl, rfl⟩
  rw [prepare_result, prepare_result, hshape.1, hshape.2, Matrix.toFloat32_widened hx,
    Matrix.toFloat32_float32]
  split_ifs
  · rfl
  · cases e.config.validate with
    | error err => rfl
    | ok u =>
      cases e.config.metric.validateFeatures x.columns with
      | error err => rfl
      | ok u => rfl

/-- Fitting the one form succeeds or fails as fitting the other one does, and it stores the same
points. -/
theorem fit_widened (e : Estimator) (hx : x.NoInfinity) (allowed : Bool) :
    (e.fit x.widened true).2.result = (e.fit x allowed).2.result ∧
      (e.fit x allowed).1.SamePoints (e.fit x.widened true).1 := by
  have hprepared := e.prepare_widened hx allowed
  rw [fit_result, fit_result, hprepared]
  constructor
  · cases (e.prepare x allowed).result <;> rfl
  · refine ⟨rfl, ?_⟩
    rw [fit_fst, fit_fst, hprepared]
    cases (e.prepare x allowed).result <;> rfl

/-- An infinite element is the only thing that can tell the forms apart. -/
theorem fit_widened_error {e : Estimator} (hx : ¬x.NoInfinity) {allowed : Bool}
    (haccepts : e.Accepts x allowed) :
    (e.fit x allowed).2.result = .ok () ∧ ∃ v ∈ x.data, v.isInf = true ∧
      (e.fit x.widened true).2.result
        = .error (Matrix.conversionError .float64 (Matrix.rangeReason (widen v))) := by
  constructor
  · rcases e.fit_cases x allowed with ⟨-, hok, -⟩ | ⟨hrefuses, -, -⟩
    · exact hok
    · exact absurd haccepts hrefuses
  · obtain ⟨v, hv, hinf, herror⟩ := Matrix.toFloat32_widened_error hx
    refine ⟨v, hv, hinf, ?_⟩
    have hconfig := Config.validate_eq_ok_iff.mpr ⟨haccepts.neighbors_pos, haccepts.parameter⟩
    have hfeatures : e.config.metric.validateFeatures x.widened.columns = .ok () :=
      Metric.validateFeatures_eq_ok_iff.mpr haccepts.features
    have hempty : ¬(x.widened.rows = 0 ∨ x.widened.columns = 0) := by
      rintro (hrows | hcolumns)
      · exact haccepts.rows_pos.ne' hrows
      · exact haccepts.columns_pos.ne' hcolumns
    have hprepared : (e.prepare x.widened true).result
        = .error (Matrix.conversionError .float64 (Matrix.rangeReason (widen v))) := by
      rw [prepare_result, if_neg hempty, hconfig, ok_bind, hfeatures, ok_bind, herror, error_bind]
    rw [fit_result, hprepared]
    rfl

/-! ## Asking with either form -/

/-- The wide form of query points has the same answer. -/
theorem query_widened (e : Estimator) {q : Matrix Float32} (hq : q.NoInfinity) (n : Option Nat)
    (withDistances : Bool) : e.query q.widened n withDistances = e.query q n withDistances := by
  have hcolumns : q.widened.columns = q.columns := rfl
  unfold query
  rw [hcolumns, Matrix.toFloat32_widened hq, Matrix.toFloat32_float32]

theorem graph_widened (e : Estimator) {q : Matrix Float32} (hq : q.NoInfinity) (n : Option Nat)
    (mode : GraphMode) : e.index.graph q.widened n mode = e.index.graph q n mode := by
  have hquery : ∀ withDistances, e.index.query q.widened n withDistances
      = e.index.query q n withDistances := e.query_widened hq n
  unfold NeighborIndex.graph
  rw [hquery]

/-- A query with an infinite element has an answer in binary32 only. -/
theorem query_widened_error {e : Estimator} {q : Matrix Float32} (hq : ¬q.NoInfinity)
    {n : Option Nat} {withDistances : Bool} {found : Neighbors}
    (hfound : (e.query q n withDistances).result = .ok found) :
    ∃ v ∈ q.data, v.isInf = true ∧
      (∀ withDistances, (e.query q.widened n withDistances).result
        = .error (Matrix.conversionError .float64 (Matrix.rangeReason (widen v)))) ∧
      ∀ mode, (e.index.graph q.widened n mode).result
        = .error (Matrix.conversionError .float64 (Matrix.rangeReason (widen v))) := by
  obtain ⟨v, hv, hinf, herror⟩ := Matrix.toFloat32_widened_error hq
  refine ⟨v, hv, hinf, ?_⟩
  cases hs : e.fitted with
  | none =>
    have hrefused := Call.outcome_of_not_fitted hs (.query q n withDistances)
    rw [Call.outcome, hfound] at hrefused
    cases hrefused
  | some s =>
    rcases query_cases hs q n with ⟨err, -, hrefused⟩ | ⟨hpos, hk, hcolumns, -⟩
    · cases (hrefused withDistances).symm.trans hfound
    · have hk : n.getD e.config.neighbors ≤ s.data.rows := hk
      have hwidth : q.widened.columns = s.data.columns := hcolumns
      have hquery : ∀ withDistances, (e.query q.widened n withDistances).result
          = .error (Matrix.conversionError .float64 (Matrix.rangeReason (widen v))) := by
        intro withDistances
        rw [query_result hs, if_neg (not_not.mpr hwidth), resolveNeighbors_eq_ok e rfl hpos hk,
          ok_bind, herror, error_bind]
      refine ⟨hquery, ?_⟩
      intro mode
      rw [graph_result, sampleCount_eq hs, ok_bind, hquery, error_bind]

/-- Points without an infinity can be fitted and looked up in either form, with the same outcome and
the same answers. Only the element type on record differs. Points with an infinity are stored and
looked up in binary32, and they are refused in binary64. -/
theorem forms_interchangeable (e : Estimator) (x : Matrix Float32) (allowed : Bool) :
    (x.NoInfinity →
      (e.fit x.widened true).2.result = (e.fit x allowed).2.result ∧
      ∀ settings,
        let first := (e.fit x allowed).1.configured settings
        let second := (e.fit x.widened true).1.configured settings
        ((e.fit x allowed).2.result = .ok () →
          first.fitted = some ⟨x, .float32⟩ ∧ second.fitted = some ⟨x, .float64⟩) ∧
        second.config = first.config ∧ second.index = first.index ∧
        ∀ q : Matrix Float32,
          (q.NoInfinity → ∀ n,
            (∀ withDistances, first.query q.widened n withDistances = first.query q n withDistances) ∧
            ∀ mode, first.index.graph q.widened n mode = first.index.graph q n mode) ∧
          (¬q.NoInfinity → ∀ n withDistances found,
            (first.query q n withDistances).result = .ok found →
            ∃ v ∈ q.data, v.isInf = true ∧
              (∀ withDistances, (first.query q.widened n withDistances).result
                = .error (Matrix.conversionError .float64 (Matrix.rangeReason (widen v)))) ∧
              ∀ mode, (first.index.graph q.widened n mode).result
                = .error (Matrix.conversionError .float64 (Matrix.rangeReason (widen v))))) ∧
    (¬x.NoInfinity → e.Accepts x allowed →
      (e.fit x allowed).2.result = .ok () ∧ ∃ v ∈ x.data, v.isInf = true ∧
        (e.fit x.widened true).2.result
          = .error (Matrix.conversionError .float64 (Matrix.rangeReason (widen v)))) := by
  constructor
  · intro hx
    obtain ⟨hresult, hsame⟩ := e.fit_widened hx allowed
    refine ⟨hresult, ?_⟩
    intro settings first second
    have hpoints := hsame.configured settings
    refine ⟨?_, hpoints.config, hpoints.index, ?_⟩
    · intro hfit
      obtain ⟨-, hstate⟩ := fit_eq_ok hfit
      obtain ⟨-, hstate'⟩ := fit_eq_ok (hresult.trans hfit)
      rw [configured_fitted, configured_fitted, hstate, hstate', Matrix.narrowed_float32,
        Matrix.narrowed_widened]
      exact ⟨rfl, rfl⟩
    · intro q
      constructor
      · intro hq n
        exact ⟨first.query_widened hq n, first.graph_widened hq n⟩
      · intro hq n withDistances found hfound
        exact query_widened_error hq hfound
  · intro hx haccepts
    exact fit_widened_error hx haccepts

/-- A single point at infinity. -/
def boundless : Matrix Float32 := ⟨1, 1, #[1 / 0]⟩

theorem overlapping_forms_interchangeable :
    let e := (({} : Estimator).fit overlapping.widened true).1
    overlapping.NoInfinity ∧ e.fitted = some ⟨overlapping, .float64⟩ ∧
    e.index = ofOverlapping.index ∧
    (⟨1, 1, #[5]⟩ : Matrix Float32).NoInfinity ∧
    ofOverlapping.query (⟨1, 1, #[5]⟩ : Matrix Float32).widened (some 2) true
      = ofOverlapping.query (⟨1, 1, #[5]⟩ : Matrix Float32) (some 2) true ∧
    ¬boundless.NoInfinity ∧
    (({} : Estimator).fit boundless false).2.result = .ok () ∧
    (({} : Estimator).fit boundless.widened true).2.result ≠ .ok () := by
  have hpoints : overlapping.NoInfinity := by decide
  have hquery : (⟨1, 1, #[5]⟩ : Matrix Float32).NoInfinity := by decide
  have hboundless : ¬boundless.NoInfinity := by decide
  obtain ⟨-, hsame⟩ := (forms_interchangeable {} overlapping true).1 hpoints
  obtain ⟨hfitted, -, hindex, hqueries⟩ := hsame []
  obtain ⟨hok, v, -, -, herror⟩ := (forms_interchangeable {} boundless false).2 hboundless
    ⟨by decide, by decide, by decide, rfl, nofun, Or.inl rfl⟩
  refine ⟨hpoints, (hfitted rfl).2, hindex, hquery, ((hqueries _).1 hquery (some 2)).1 true,
    hboundless, hok, ?_⟩
  rw [herror]
  exact nofun

/-- Fitted to a finite point, the estimator finds the neighbor of a point at infinity in binary32. In
binary64 it refuses the same point. -/
theorem boundless_query_refused :
    let e := (({} : Estimator).fit (⟨1, 1, #[0]⟩ : Matrix Float32) true).1
    (⟨1, 1, #[0]⟩ : Matrix Float32).NoInfinity ∧
    (({} : Estimator).fit (⟨1, 1, #[0]⟩ : Matrix Float32) true).2.result = .ok () ∧
    (e.query boundless (some 1) true).result.map (·.indices.row? 0) = .ok (some [0]) ∧
    (e.query boundless (some 1) true).result.map (·.distances.map (·.row? 0))
      = .ok (some (some [1 / 0])) ∧
    (e.query boundless.widened (some 1) true).result.map (·.indices.row? 0)
      = .error (Matrix.conversionError .float64 (Matrix.rangeReason (1 / 0))) := by
  refine ⟨by decide, rfl, ?_, ?_, ?_⟩
  · decide +kernel
  · decide +kernel
  · decide +kernel

end Estimator

end NeighborSearch
