import NeighborSearch.Proofs.Search

/-!
# Names of metrics

A name is understood in upper and lower case if it is one of the valid names. Two of them go with an
exponent, which has to pass its check; to all others the exponent makes no difference. A metric that
passes its check is found again by its own name, `names_understood`.
-/

namespace NeighborSearch

namespace Metric

/-- The names that go with an exponent. -/
def minkowskiNames : List String := ["minkowski", "lp"]

/-! ## Names in lower case -/

theorem mem_validNames_of_minkowski {name : String} (h : name ∈ minkowskiNames) :
    name ∈ validNames := by
  fin_cases h <;> simp [validNames]

/-- Only the valid names are understood. -/
theorem ofLowerName?_of_not_mem {name : String} (h : name ∉ validNames) (p : Option Float) :
    ofLowerName? name p = none := by
  unfold ofLowerName?
  split <;> simp_all [validNames]

theorem ofLowerName?_minkowski {name : String} (h : name ∈ minkowskiNames) (p : Option Float) :
    ofLowerName? name p = some (.minkowski (p.getD 2)) := by
  fin_cases h <;> rfl

/-- Every other valid name has a metric of its own, whatever the exponent. -/
theorem exists_ofLowerName? {name : String} (h : name ∈ validNames)
    (hname : name ∉ minkowskiNames) :
    ∃ m, m.exponent? = none ∧ ∀ p, ofLowerName? name p = some m := by
  fin_cases h
  all_goals try exact ⟨_, rfl, fun _ => rfl⟩
  all_goals simp [minkowskiNames] at hname

/-- A canonical name is understood as its metric. -/
theorem ofLowerName?_name {m : Metric} {p : Option Float} (h : ∀ q, m = .minkowski q → p = some q) :
    ofLowerName? m.name p = some m := by
  cases m with
  | minkowski q =>
    rw [h q rfl]
    rfl
  | _ => rfl

theorem lower_name (m : Metric) : m.name.map Char.toLower = m.name := by
  cases m <;> simp [name, ← String.toList_inj]

/-! ## Names in any case -/

/-- A name that is understood gives its metric if that is valid. -/
theorem ofName_of_lower {name : String} {p : Option Float} {m : Metric}
    (h : ofLowerName? (name.map Char.toLower) p = some m) :
    ofName name p = m.validate.map fun _ => m := by
  rw [ofName, h]

/-- Any other name is refused and shown as it was given. -/
theorem ofName_of_not_mem {name : String} (h : name.map Char.toLower ∉ validNames)
    (p : Option Float) : ofName name p = .error (.unsupportedMetric name) := by
  rw [ofName, ofLowerName?_of_not_mem h]

/-- A Minkowski name is refused only for its exponent. -/
theorem ofName_minkowski {name : String} (h : name.map Char.toLower ∈ minkowskiNames)
    (p : Option Float) :
    ofName name p = (minkowski (p.getD 2)).validate.map fun _ => .minkowski (p.getD 2) :=
  ofName_of_lower (ofLowerName?_minkowski h p)

theorem exists_ofName {name : String} (h : name.map Char.toLower ∈ validNames)
    (hname : name.map Char.toLower ∉ minkowskiNames) :
    ∃ m, m.validate = .ok () ∧ ∀ p, ofName name p = .ok m := by
  obtain ⟨m, hexponent, hm⟩ := exists_ofLowerName? h hname
  have hvalid : m.validate = .ok () := validate_eq_ok_iff.mpr (hexponent ▸ nofun)
  refine ⟨m, hvalid, fun p => ?_⟩
  rw [ofName_of_lower (hm p), hvalid]
  rfl

/-- A name is not known, is understood, or is refused for its exponent. -/
theorem ofName_cases (name : String) (p : Option Float) :
    (name.map Char.toLower ∉ validNames ∧ ofName name p = .error (.unsupportedMetric name)) ∨
    (name.map Char.toLower ∈ validNames ∧
      (name.map Char.toLower ∈ minkowskiNames → Admissible p) ∧
      ∃ m, m.validate = .ok () ∧ ofName name p = .ok m) ∨
    (name.map Char.toLower ∈ minkowskiNames ∧ ¬Admissible p ∧ ∃ q, p = some q ∧
      ofName name p = .error (.invalidHyperparameter "p" (Decimal.plain.describe q) ">= 1")) := by
  by_cases hname : name.map Char.toLower ∈ minkowskiNames
  · have hvalid := mem_validNames_of_minkowski hname
    rw [ofName_minkowski hname]
    by_cases hp : Admissible p
    · refine Or.inr (Or.inl ⟨hvalid, fun _ => hp, .minkowski (p.getD 2), ?_⟩)
      have hexponent : (minkowski (p.getD 2)).validate = .ok () := by
        cases p with
        | none => exact validate_eq_ok_iff.mpr fun q hq => Option.some.inj hq ▸ by decide
        | some q => exact validate_eq_ok_iff.mpr hp
      rw [hexponent]
      exact ⟨rfl, rfl⟩
    · cases p with
      | none => exact absurd nofun hp
      | some q =>
        rw [Option.getD_some, validate_minkowski_eq_error hp]
        exact Or.inr (Or.inr ⟨hname, hp, q, rfl, rfl⟩)
  · by_cases hvalid : name.map Char.toLower ∈ validNames
    · obtain ⟨m, hm, hall⟩ := exists_ofName hvalid hname
      exact Or.inr (Or.inl ⟨hvalid, fun h => absurd h hname, m, hm, hall p⟩)
    · exact Or.inl ⟨hvalid, ofName_of_not_mem hvalid p⟩

/-- An exponent makes no difference to a name that does not go with one. -/
theorem ofName_congr {name : String} (hname : name.map Char.toLower ∉ minkowskiNames)
    (p q : Option Float) : ofName name p = ofName name q := by
  by_cases hvalid : name.map Char.toLower ∈ validNames
  · obtain ⟨m, -, hall⟩ := exists_ofName hvalid hname
    rw [hall, hall]
  · rw [ofName_of_not_mem hvalid, ofName_of_not_mem hvalid]

/-- What becomes of a name and an exponent. -/
structure NameSpec (name : String) (p : Option Float) : Prop where
  understood : (∃ m, ofName name p = .ok m) ↔ name.map Char.toLower ∈ validNames ∧
    (name.map Char.toLower ∈ minkowskiNames → Admissible p)
  unknown : name.map Char.toLower ∉ validNames → ofName name p = .error (.unsupportedMetric name)
  refused : name.map Char.toLower ∈ minkowskiNames → ¬Admissible p → ∃ q, p = some q ∧
    ofName name p = .error (.invalidHyperparameter "p" (Decimal.plain.describe q) ">= 1")
  validated : ∀ m, ofName name p = .ok m → m.validate = .ok ()
  ignored : name.map Char.toLower ∉ minkowskiNames → ∀ q, ofName name q = ofName name p

theorem nameSpec (name : String) (p : Option Float) : NameSpec name p := by
  have hignored : name.map Char.toLower ∉ minkowskiNames → ∀ q, ofName name q = ofName name p :=
    fun hname q => ofName_congr hname q p
  rcases ofName_cases name p with ⟨hvalid, h⟩ | ⟨hvalid, hp, m, hm, h⟩ | ⟨hname, hp, hrefused⟩
  · refine ⟨?_, fun _ => h, ?_, ?_, hignored⟩
    · simp [h, hvalid]
    · exact fun hname => absurd (mem_validNames_of_minkowski hname) hvalid
    · simp [h]
  · refine ⟨iff_of_true ⟨m, h⟩ ⟨hvalid, hp⟩, fun hnone => absurd hvalid hnone,
      fun hname hrange => absurd (hp hname) hrange, ?_, hignored⟩
    intro m' hm'
    cases h.symm.trans hm'
    exact hm
  · obtain ⟨q, rfl, h⟩ := hrefused
    refine ⟨?_, fun hnone => absurd (mem_validNames_of_minkowski hname) hnone,
      fun _ _ => ⟨q, rfl, h⟩, ?_, hignored⟩
    · simp [h, hname, hp]
    · simp [h]

/-! ## The own name of a metric -/

/-- The name of a metric gives the metric back, if it is valid. -/
theorem ofName_name {m : Metric} {p : Option Float} (h : ∀ q, m = .minkowski q → p = some q) :
    ofName m.name p = m.validate.map fun _ => m := by
  refine ofName_of_lower ?_
  rw [lower_name, ofLowerName?_name h]

/-- A metric goes by its own name, with its own exponent if it has one. -/
structure FoundByName (m : Metric) (p : Option Float) : Prop where
  valid : ofName m.name p = .ok m ↔ m.validate = .ok ()
  invalid : m.validate ≠ .ok () → ∃ param value constraint,
    ofName m.name p = .error (.invalidHyperparameter param value constraint)

theorem foundByName {m : Metric} {p : Option Float} (h : ∀ q, m = .minkowski q → p = some q) :
    FoundByName m p := by
  have hname := ofName_name h
  by_cases hexponent : Admissible m.exponent?
  · have hvalid := validate_eq_ok_iff.mpr hexponent
    rw [hvalid] at hname
    exact ⟨iff_of_true hname hvalid, fun hinvalid => absurd hvalid hinvalid⟩
  · cases m with
    | minkowski q =>
      rw [validate_minkowski_eq_error hexponent] at hname
      refine ⟨iff_of_false ?_ (mt validate_eq_ok_iff.mp hexponent), fun _ => ⟨_, _, _, hname⟩⟩
      rw [hname]
      exact nofun
    | _ => exact absurd nofun hexponent

/-- Every name, in any case and with any exponent, is understood, refused for its exponent or not
known, as the table of valid names says, and every metric goes by its own name. -/
theorem names_understood :
    (∀ name p, NameSpec name p) ∧
    ∀ (m : Metric) (p : Option Float), (∀ q, m = .minkowski q → p = some q) → FoundByName m p :=
  ⟨nameSpec, fun _ _ h => foundByName h⟩

/-- A name in capitals, the same name with an exponent that is too small, a name that is not valid,
and a metric by its own name. -/
theorem capitals_understood :
    (∃ m, ofName "LP" none = .ok m) ∧
      (∃ q, some 0.5 = some q ∧ ofName "LP" (some 0.5)
        = .error (.invalidHyperparameter "p" (Decimal.plain.describe q) ">= 1")) ∧
      ofName "L3" (some 0.5) = .error (.unsupportedMetric "L3") ∧
      ofName "minkowski" (some 3) = .ok (.minkowski 3) := by
  have hlower : "LP".map Char.toLower = "lp" := by simp [← String.toList_inj]
  have hother : "L3".map Char.toLower = "l3" := by simp [← String.toList_inj]
  have hsmall : ¬Admissible (some 0.5) := fun h => absurd (h _ rfl).2 (by decide)
  have hexponent : ∀ q, minkowski 3 = .minkowski q → some 3 = some q := by
    intro q hq
    cases hq
    rfl
  refine ⟨(names_understood.1 "LP" none).understood.mpr ?_,
    (names_understood.1 "LP" (some 0.5)).refused ?_ hsmall,
    (names_understood.1 "L3" (some 0.5)).unknown ?_,
    (names_understood.2 (.minkowski 3) (some 3) hexponent).valid.mpr ?_⟩
  · rw [hlower]
    exact ⟨by decide, fun _ => nofun⟩
  · rw [hlower]
    decide
  · rw [hother]
    decide
  · exact validate_eq_ok_iff.mpr fun q hq => Option.some.inj hq ▸ by decide

end Metric

end NeighborSearch
