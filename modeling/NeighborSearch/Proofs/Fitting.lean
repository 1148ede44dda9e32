import NeighborSearch.Proofs.Arithmetic
import NeighborSearch.Proofs.Checks

/-!
# Fitting

Points are stored exactly if they pass every check, and whatever was stored before is gone in either
case. After a failure nothing is stored until a later fit succeeds; after a success the estimator is
the one that a new estimator with the same configuration would have become.
-/

namespace NeighborSearch

/-! ## What can be stored -/

/-- NaN and the numbers of the range are not outside. -/
theorem outsideFloat32_eq_false_iff {v : Float} :
    outsideFloat32 v = false ↔ v.isNaN = true ∨ -float32Max ≤ v ∧ v ≤ float32Max := by
  have hhigh : float32Max.isNaN = false := by decide
  have hlow : (-float32Max).isNaN = false := by decide
  unfold outsideFloat32
  rw [Bool.or_eq_false_iff, decide_eq_false_iff_not, decide_eq_false_iff_not]
  cases hv : v.isNaN with
  | true =>
    exact iff_of_true ⟨not_lt_of_isNaN_or (Or.inr hv), not_lt_of_isNaN_or (Or.inl hv)⟩ (Or.inl rfl)
  | false =>
    rw [lt_iff_place64 hhigh hv, lt_iff_place64 hv hlow, le_iff_place64 hlow hv,
      le_iff_place64 hv hhigh, not_lt, not_lt, and_comm]
    simp

namespace Matrix

variable {α : Type} [Element α]

/-- The elements are binary32 numbers already, or there is leave to convert them and each of them
is NaN or within the range of binary32. -/
def Storable (x : Matrix α) (allowed : Bool) : Prop :=
  elementType α = .float32 ∨ allowed = true ∧ ∀ v ∈ x.data,
    (Element.toFloat v).isNaN = true ∨
      -float32Max ≤ Element.toFloat v ∧ Element.toFloat v ≤ float32Max

/-- A matrix is converted element by element, or refused with the reason of the conversion. -/
theorem toFloat32_cases (x : Matrix α) (allowed : Bool) :
    x.Storable allowed ∧ x.toFloat32 allowed = .ok x.narrowed ∨
      ¬x.Storable allowed ∧ ∃ reason,
        x.toFloat32 allowed = .error (conversionError (elementType α) reason) := by
  unfold toFloat32 Storable
  split_ifs with htype hallowed
  · exact Or.inl ⟨Or.inl htype, rfl⟩
  · refine Or.inr ⟨?_, _, rfl⟩
    simp only [htype, false_or, not_and]
    intro hleave
    rw [hleave] at hallowed
    cases hallowed
  · have hleave : allowed = true := by simpa using hallowed
    cases hfind : (x.data.toList.map Element.toFloat).find? outsideFloat32 with
    | some v =>
      refine Or.inr ⟨?_, _, rfl⟩
      simp only [htype, false_or, not_and]
      intro _ hrange
      obtain ⟨u, hu, rfl⟩ := List.mem_map.mp (List.mem_of_find?_eq_some hfind)
      have houtside := List.find?_some hfind
      rw [outsideFloat32_eq_false_iff.mpr (hrange u (Array.mem_toList_iff.mp hu))] at houtside
      cases houtside
    | none =>
      refine Or.inl ⟨Or.inr ⟨hleave, ?_⟩, rfl⟩
      intro v hv
      rw [← outsideFloat32_eq_false_iff, ← Bool.not_eq_true]
      exact List.find?_eq_none.mp hfind _ (List.mem_map_of_mem (Array.mem_toList_iff.mpr hv))

theorem toFloat32_eq_ok_iff {x : Matrix α} {allowed : Bool} {q : Matrix Float32} :
    x.toFloat32 allowed = .ok q ↔ x.Storable allowed ∧ q = x.narrowed := by
  rcases x.toFloat32_cases allowed with ⟨hstorable, hok⟩ | ⟨hstorable, reason, herr⟩
  · rw [hok, Except.ok.injEq, eq_comm]
    exact (and_iff_right hstorable).symm
  · rw [herr]
    exact iff_of_false nofun fun h => hstorable h.1

end Matrix

/-! ## What every check says -/

theorem bind_eq_ok_iff {α β : Type} {x : Except Error α} {f : α → Except Error β} {b : β} :
    x >>= f = .ok b ↔ ∃ a, x = .ok a ∧ f a = .ok b := by
  cases x with
  | ok a => simp
  | error err => simp

theorem Metric.inBounds_validate (m : Metric) : InBounds m.validate := by
  unfold Metric.validate
  split
  · split_ifs
    · exact nofun
    · exact inBounds_ok ()
  · exact inBounds_ok ()

theorem Metric.inBounds_validateFeatures (m : Metric) (features : Nat) :
    InBounds (m.validateFeatures features) := by
  unfold Metric.validateFeatures
  split
  · split_ifs
    · exact inBounds_ok ()
    · exact nofun
  · exact inBounds_ok ()

theorem Config.inBounds_validate (config : Config) : InBounds config.validate := by
  unfold Config.validate
  split_ifs
  · exact nofun
  · exact config.metric.inBounds_validate

theorem Config.validate_eq_ok_iff {config : Config} :
    config.validate = .ok () ↔ 1 ≤ config.neighbors ∧ config.metric.validate = .ok () := by
  unfold Config.validate
  split_ifs with hzero
  · refine iff_of_false nofun ?_
    rintro ⟨hpos, -⟩
    omega
  · exact ⟨fun h => ⟨by omega, h⟩, And.right⟩

namespace Estimator

variable {α : Type} [Element α]

/-- The points pass every check. -/
structure Accepts (e : Estimator) (x : Matrix α) (allowed : Bool) : Prop where
  rows_pos : 0 < x.rows
  columns_pos : 0 < x.columns
  neighbors_pos : 1 ≤ e.config.neighbors
  parameter : e.config.metric.validate = .ok ()
  features : e.config.metric = .haversine → x.columns = 2
  storable : x.Storable allowed

/-- Points that are accepted are stored as their conversion. -/
theorem Accepts.prepare_eq {e : Estimator} {x : Matrix α} {allowed : Bool}
    (h : e.Accepts x allowed) :
    (e.prepare x allowed).result = .ok ⟨x.narrowed, elementType α⟩ := by
  have hconfig := Config.validate_eq_ok_iff.mpr ⟨h.neighbors_pos, h.parameter⟩
  have hfeatures := Metric.validateFeatures_eq_ok_iff.mpr h.features
  have hempty : ¬(x.rows = 0 ∨ x.columns = 0) := by
    have := h.rows_pos
    have := h.columns_pos
    omega
  rw [prepare_result, if_neg hempty, hconfig, ok_bind, hfeatures, ok_bind]
  rw [Matrix.toFloat32_eq_ok_iff.mpr ⟨h.storable, rfl⟩, ok_bind]

/-- Only points that are accepted are stored. -/
theorem accepts_of_prepare {e : Estimator} {x : Matrix α} {allowed : Bool} {s : FittedSet}
    (h : (e.prepare x allowed).result = .ok s) : e.Accepts x allowed := by
  rw [prepare_result] at h
  split_ifs at h with hempty
  obtain ⟨_, hconfig, h⟩ := bind_eq_ok_iff.mp h
  obtain ⟨_, hfeatures, h⟩ := bind_eq_ok_iff.mp h
  obtain ⟨q, hq, -⟩ := bind_eq_ok_iff.mp h
  obtain ⟨hpos, hparameter⟩ := Config.validate_eq_ok_iff.mp hconfig
  exact ⟨by omega, by omega, hpos, hparameter, Metric.validateFeatures_eq_ok_iff.mp hfeatures,
    (Matrix.toFloat32_eq_ok_iff.mp hq).1⟩

theorem inBounds_prepare (e : Estimator) (x : Matrix α) (allowed : Bool) :
    InBounds (e.prepare x allowed).result := by
  rw [prepare_result]
  split_ifs
  · exact nofun
  · refine e.config.inBounds_validate.bind fun _ _ => ?_
    refine (e.config.metric.inBounds_validateFeatures x.columns).bind fun _ _ => ?_
    exact (inBounds_toFloat32 x allowed).bind fun _ _ => inBounds_ok _

/-- A fit stores the points if they pass every check. Otherwise it leaves nothing stored. -/
theorem fit_cases (e : Estimator) (x : Matrix α) (allowed : Bool) :
    (e.Accepts x allowed ∧ (e.fit x allowed).2.result = .ok () ∧
      (e.fit x allowed).1 = { e with fitted := some ⟨x.narrowed, elementType α⟩ }) ∨
    (¬e.Accepts x allowed ∧ (∃ err, (e.fit x allowed).2.result = .error err ∧ err ≠ .outOfBounds) ∧
      (e.fit x allowed).1 = { e with fitted := none }) := by
  rw [fit_result, fit_fst]
  cases hprepared : (e.prepare x allowed).result with
  | ok s =>
    have haccepts := accepts_of_prepare hprepared
    rw [haccepts.prepare_eq, Except.ok.injEq] at hprepared
    exact Or.inl ⟨haccepts, rfl, by rw [hprepared]; rfl⟩
  | error err =>
    refine Or.inr ⟨?_, ⟨err, rfl, ?_⟩, rfl⟩
    · intro haccepts
      rw [haccepts.prepare_eq] at hprepared
      cases hprepared
    · rintro rfl
      exact e.inBounds_prepare x allowed hprepared

/-! ## Until the next fit -/

/-- A change of the configuration. -/
inductive Setting
  | neighbors (k : Nat)
  | metric (m : Metric)
  | exponent (p : Float)

/-- Changes one setting of an estimator. -/
def Setting.apply (e : Estimator) : Setting → Estimator
  | .neighbors k => e.withNeighbors k
  | .metric m => e.withMetric m
  | .exponent p => e.withExponent p

/-- Changes settings of an estimator one after another. -/
def configured (e : Estimator) (settings : List Setting) : Estimator :=
  settings.foldl Setting.apply e

theorem Setting.apply_fitted (e : Estimator) (setting : Setting) :
    (setting.apply e).fitted = e.fitted := by
  cases setting with
  | neighbors k => rfl
  | metric m => rfl
  | exponent p => exact withExponent_fitted e p

/-- Settings do not touch the stored points. -/
theorem configured_fitted (e : Estimator) (settings : List Setting) :
    (e.configured settings).fitted = e.fitted := by
  induction settings generalizing e with
  | nil => rfl
  | cons setting settings ih =>
    rw [configured, List.foldl_cons, ← configured, ih, setting.apply_fitted]

/-- What a setting makes of a configuration does not depend on the stored points. -/
theorem Setting.apply_config {e e' : Estimator} (h : e'.config = e.config) (setting : Setting) :
    (setting.apply e').config = (setting.apply e).config := by
  obtain ⟨config, fitted⟩ := e
  obtain ⟨config', fitted'⟩ := e'
  obtain rfl : config' = config := h
  cases setting with
  | neighbors k => rfl
  | metric m => rfl
  | exponent p =>
    simp only [apply, withExponent]
    split <;> rfl

/-- Changes of the configuration do not look at what is stored. -/
theorem configured_config {e e' : Estimator} (h : e'.config = e.config) (settings : List Setting) :
    (e'.configured settings).config = (e.configured settings).config := by
  induction settings generalizing e e' with
  | nil => exact h
  | cons setting settings ih => exact ih (setting.apply_config h)

/-- What can come of an estimator while no fit succeeds. -/
inductive Drifts (e : Estimator) : Estimator → Prop
  | refl : Drifts e e
  | set {e' : Estimator} (h : Drifts e e') (setting : Setting) : Drifts e (setting.apply e')
  | fit {e' : Estimator} (h : Drifts e e') {α : Type} [Element α] (x : Matrix α) (allowed : Bool)
      (hfail : (e'.fit x allowed).2.result ≠ .ok ()) : Drifts e (e'.fit x allowed).1

/-- No points are stored, and whatever asks for them says so. -/
structure Released (e : Estimator) : Prop where
  isFitted : e.isFitted = false
  calls : ∀ call : Call, call.outcome e = .error (.notFitted displayName)
  data : e.fittedData = .error (.notFitted displayName)
  dataAs : ∀ (α : Type) [Element α], e.fittedDataAs α = .error (.notFitted displayName)
  elementType : e.fittedElementType = .error (.notFitted displayName)
  features : e.featureCount = .error (.notFitted displayName)
  samples : e.sampleCount = .error (.notFitted displayName)

theorem released_of_fitted {e : Estimator} (hs : e.fitted = none) : e.Released := by
  have hset : e.fittedSet = .error (.notFitted displayName) := by rw [fittedSet, hs]
  have hdata : e.fittedData = .error (.notFitted displayName) := by
    rw [fittedData, hset]
    rfl
  refine ⟨?_, Call.outcome_of_not_fitted hs, hdata, ?_, ?_, ?_, ?_⟩
  · rw [Estimator.isFitted, hs]
    rfl
  · intro α _
    rw [fittedDataAs, hdata]
    rfl
  · rw [fittedElementType, hset]
    rfl
  · rw [featureCount, hdata]
    rfl
  · rw [sampleCount, hdata]
    rfl

theorem Drifts.fitted_eq_none {e e' : Estimator} (h : e.Drifts e') (hs : e.fitted = none) :
    e'.fitted = none := by
  induction h with
  | refl => exact hs
  | set h setting ih => rw [setting.apply_fitted, ih]
  | @fit e' h α _ x allowed hfail ih =>
    rcases e'.fit_cases x allowed with ⟨-, hok, -⟩ | ⟨-, -, hstate⟩
    · exact absurd hok hfail
    · rw [hstate]

/-- A new estimator that was given this configuration. -/
def fresh (config : Config) : Estimator :=
  (({} : Estimator).withNeighbors config.neighbors).withMetric config.metric

/-- What a fit does, on points of any shape and any element type. -/
structure FitSpec (e : Estimator) (x : Matrix α) (allowed : Bool) : Prop where
  ok_iff : (e.fit x allowed).2.result = .ok () ↔ e.Accepts x allowed
  inBounds : InBounds (e.fit x allowed).2.result
  config : (e.fit x allowed).1.config = e.config
  failed : ¬e.Accepts x allowed → ∀ e', (e.fit x allowed).1.Drifts e' → e'.Released
  succeeded : e.Accepts x allowed → ∀ settings,
    ((e.fit x allowed).1.configured settings).fitted = some ⟨x.narrowed, elementType α⟩ ∧
    (e.fit x allowed).1.configured settings
      = ((fresh e.config).fit x allowed).1.configured settings

theorem fitSpec (e : Estimator) (x : Matrix α) (allowed : Bool) : e.FitSpec x allowed := by
  rcases e.fit_cases x allowed with ⟨haccepts, hok, hstate⟩ | ⟨hrefuses, ⟨err, herr, hin⟩, hstate⟩
  · refine ⟨iff_of_true hok haccepts, ?_, ?_, fun h => absurd haccepts h, ?_⟩
    · rw [hok]
      exact inBounds_ok ()
    · rw [hstate]
    · intro _ settings
      have hfresh : (fresh e.config).Accepts x allowed :=
        ⟨haccepts.rows_pos, haccepts.columns_pos, haccepts.neighbors_pos, haccepts.parameter,
          haccepts.features, haccepts.storable⟩
      have hsame : (e.fit x allowed).1 = ((fresh e.config).fit x allowed).1 := by
        rw [fit_fst, fit_fst, haccepts.prepare_eq, hfresh.prepare_eq]
        rfl
      constructor
      · rw [configured_fitted, hstate]
      · rw [hsame]
  · refine ⟨iff_of_false ?_ hrefuses, ?_, ?_, ?_, fun h => absurd h hrefuses⟩
    · rw [herr]
      exact nofun
    · rw [herr]
      exact fun h => hin (Except.error.inj h)
    · rw [hstate]
    · intro _ e' hdrifts
      exact released_of_fitted (hdrifts.fitted_eq_none (by rw [hstate]))

/-- Over whole runs: every fit does what `FitSpec` says, and what is stored is never empty, so there
is a point to leave out. -/
theorem fits_specified {e : Estimator} (he : e.Reachable) :
    (∀ {α : Type} [Element α] (x : Matrix α) (allowed : Bool), e.FitSpec x allowed) ∧
    ∀ s, e.fitted = some s →
      Proper s ∧ SelfMatch.candidateCount .exclude s.data.rows + 1 = s.data.rows := by
  constructor
  · intro α _ x allowed
    exact e.fitSpec x allowed
  · intro s hs
    have hproper := he.proper hs
    have hrows := hproper.rows_pos
    have hothers : SelfMatch.candidateCount .exclude s.data.rows = s.data.rows - 1 := rfl
    exact ⟨hproper, by omega⟩

theorem ofOverlapping_fits_specified :
    (∀ allowed, ofOverlapping.FitSpec (⟨1, 1, #[5]⟩ : Matrix Float) allowed) ∧
    (ofOverlapping.fit (⟨1, 1, #[5]⟩ : Matrix Float) true).2.result = .ok () ∧
    (ofOverlapping.fit (⟨1, 1, #[5]⟩ : Matrix Float) false).2.result ≠ .ok () ∧
    Proper ⟨overlapping.narrowed, .float32⟩ ∧ SelfMatch.candidateCount .exclude 4 + 1 = 4 := by
  have h := fits_specified reachable_ofOverlapping
  exact ⟨h.1 _, rfl, nofun, h.2 _ fitted_ofOverlapping⟩

end Estimator

end NeighborSearch
