import NeighborSearch.Proofs.Conversions
import NeighborSearch.Proofs.Interchange

/-!
# The range of stored points

Conversion to binary32 refuses exactly the points with an element beyond the largest binary32 number,
and it names the first of these. Of all other points every element is stored as the nearest binary32
number, so that no infinity comes out, and NaN is kept: `toFloat32_accepts_range`.
-/

namespace NeighborSearch

/-- The number lies beyond the finite binary32 numbers. NaN lies nowhere. -/
def OutOfRange (x : Float) : Prop := float32Max < x ∨ x < -float32Max

theorem outsideFloat32_iff {x : Float} : outsideFloat32 x = true ↔ OutOfRange x := by
  simp [outsideFloat32, OutOfRange]

theorem not_outOfRange_iff {x : Float} :
    ¬OutOfRange x ↔ x.isNaN = true ∨ -float32Max ≤ x ∧ x ≤ float32Max := by
  rw [← outsideFloat32_iff, Bool.not_eq_true, outsideFloat32_eq_false_iff]

/-- What a number is stored as: NaN as NaN, and any other number as the nearest one. -/
structure StoredAs (x : Float) (v : Float32) : Prop where
  nan : v.isNaN = x.isNaN
  number : x.isNaN = false → NearestFloat32 x v

/-- A number in range is stored as its nearest binary32 number. -/
theorem storedAs_narrow {x : Float} (h : ¬OutOfRange x) : StoredAs x (narrow x) := by
  refine ⟨isNaN_narrow x, ?_⟩
  intro hnan
  rcases not_outOfRange_iff.mp h with hx | ⟨hlow, hhigh⟩
  · rw [hnan] at hx
    cases hx
  · exact nearestFloat32_narrow hlow hhigh

namespace Matrix

/-- Two matrices have the same shape and their elements are related one by one. -/
structure Matches {α β : Type} (R : α → β → Prop) (x : Matrix α) (y : Matrix β) : Prop where
  rows : y.rows = x.rows
  columns : y.columns = x.columns
  entries : List.Forall₂ R x.data.toList y.data.toList

theorem matches_map {α β : Type} {R : α → β → Prop} {x : Matrix α} {f : α → β}
    (h : ∀ v ∈ x.data, R v (f v)) : Matches R x (x.map f) := by
  refine ⟨rfl, rfl, ?_⟩
  rw [map, Array.toList_map, List.forall₂_map_right_iff, List.forall₂_same]
  exact fun v hv => h v (Array.mem_toList_iff.mp hv)

variable {α : Type} [Element α]

/-- In row-major order, `v` is the first element beyond the finite binary32 numbers. -/
def FirstOutOfRange (x : Matrix α) (v : α) : Prop :=
  OutOfRange (Element.toFloat v) ∧ ∃ before after, x.data.toList = before ++ v :: after ∧
    ∀ u ∈ before, ¬OutOfRange (Element.toFloat u)

/-- If any element is out of range, there is a first one. -/
theorem exists_firstOutOfRange_iff (x : Matrix α) :
    (∃ v, x.FirstOutOfRange v) ↔ ∃ v ∈ x.data, OutOfRange (Element.toFloat v) := by
  constructor
  · rintro ⟨v, hv, before, after, hsplit, -⟩
    refine ⟨v, ?_, hv⟩
    rw [← Array.mem_toList_iff, hsplit]
    exact List.mem_append_right _ List.mem_cons_self
  · rintro ⟨u, hu, hout⟩
    cases hfind : x.data.toList.find? fun v => outsideFloat32 (Element.toFloat v) with
    | none =>
      have hin := List.find?_eq_none.mp hfind u (Array.mem_toList_iff.mpr hu)
      exact absurd (outsideFloat32_iff.mpr hout) hin
    | some v =>
      obtain ⟨hv, before, after, hsplit, hbefore⟩ := List.find?_eq_some_iff_append.mp hfind
      refine ⟨v, outsideFloat32_iff.mp hv, before, after, hsplit, ?_⟩
      intro w hw
      rw [← outsideFloat32_iff, Bool.not_eq_true, ← Bool.not_eq_true']
      exact hbefore w hw

/-- Without leave to convert, other types are refused. -/
theorem toFloat32_refused (htype : elementType α ≠ .float32) (x : Matrix α) :
    x.toFloat32 false = .error (conversionError (elementType α) disabledReason) := by
  rw [toFloat32, if_neg htype]
  rfl

/-- The refusal names the first element beyond the range. -/
theorem FirstOutOfRange.toFloat32_eq (htype : elementType α ≠ .float32) {x : Matrix α} {v : α}
    (h : x.FirstOutOfRange v) : x.toFloat32 true
      = .error (conversionError (elementType α) (rangeReason (Element.toFloat v))) := by
  obtain ⟨hv, before, after, hsplit, hbefore⟩ := h
  have hfind : (x.data.toList.map Element.toFloat).find? outsideFloat32
      = some (Element.toFloat v) := by
    rw [List.find?_eq_some_iff_append]
    refine ⟨outsideFloat32_iff.mpr hv, before.map Element.toFloat, after.map Element.toFloat, ?_, ?_⟩
    · rw [hsplit, List.map_append, List.map_cons]
    · intro y hy
      obtain ⟨u, hu, rfl⟩ := List.mem_map.mp hy
      rw [Bool.not_eq_true', ← Bool.not_eq_true, outsideFloat32_iff]
      exact hbefore u hu
  rw [toFloat32, if_neg htype, if_neg (by decide), hfind]

theorem toFloat32_of_range {x : Matrix α} (h : ∀ v ∈ x.data, ¬OutOfRange (Element.toFloat v)) :
    x.toFloat32 true = .ok x.narrowed :=
  toFloat32_eq_ok_iff.mpr ⟨Or.inr ⟨rfl, fun v hv => not_outOfRange_iff.mp (h v hv)⟩, rfl⟩

/-- What comes of the conversion of points that are not in binary32 already. -/
structure ConversionSpec (x : Matrix α) : Prop where
  disabled : x.toFloat32 false = .error (conversionError (elementType α) disabledReason)
  fails_iff : (∃ err, x.toFloat32 true = .error err) ↔ ∃ v ∈ x.data, OutOfRange (Element.toFloat v)
  names_first : ∀ err, x.toFloat32 true = .error err ↔ ∃ v, x.FirstOutOfRange v ∧
    err = conversionError (elementType α) (rangeReason (Element.toFloat v))
  stores : ∀ stored, x.toFloat32 true = .ok stored →
    x.Matches (fun v w => StoredAs (Element.toFloat v) w) stored

theorem conversionSpec (htype : elementType α ≠ .float32) (x : Matrix α) : x.ConversionSpec := by
  by_cases hout : ∃ v ∈ x.data, OutOfRange (Element.toFloat v)
  · obtain ⟨v, hv⟩ := x.exists_firstOutOfRange_iff.mpr hout
    have herror := hv.toFloat32_eq htype
    refine ⟨toFloat32_refused htype x, iff_of_true ⟨_, herror⟩ hout, ?_, ?_⟩
    · intro err
      constructor
      · intro herr
        exact ⟨v, hv, Except.error.inj (herr.symm.trans herror)⟩
      · rintro ⟨u, hu, rfl⟩
        exact hu.toFloat32_eq htype
    · intro stored hstored
      cases herror.symm.trans hstored
  · have hrange : ∀ v ∈ x.data, ¬OutOfRange (Element.toFloat v) :=
      fun v hv hv' => hout ⟨v, hv, hv'⟩
    have hok := toFloat32_of_range hrange
    refine ⟨toFloat32_refused htype x, iff_of_false ?_ hout, ?_, ?_⟩
    · rintro ⟨err, herr⟩
      cases hok.symm.trans herr
    · intro err
      refine iff_of_false (fun herr => by cases hok.symm.trans herr) ?_
      rintro ⟨v, hv, -⟩
      exact hout (x.exists_firstOutOfRange_iff.mp ⟨v, hv⟩)
    · intro stored hstored
      rw [← Except.ok.inj (hok.symm.trans hstored)]
      exact matches_map fun v hv => storedAs_narrow (hrange v hv)

/-! ## What always converts -/

/-- Points convert if every element is an integer, and finite numbers come out. -/
theorem exists_toFloat32_of_integers (I : Integers α) (x : Matrix α) :
    ∃ stored, x.toFloat32 true = .ok stored ∧ ∀ w ∈ stored.data, w.isFinite = true := by
  refine ⟨_, toFloat32_of_range fun v _ => not_outOfRange_iff.mpr (Or.inr (I.toFloat_range v)), ?_⟩
  intro w hw
  obtain ⟨v, -, rfl⟩ := Array.mem_map.mp hw
  obtain ⟨hlow, hhigh⟩ := I.toFloat_range v
  exact (nearestFloat32_narrow hlow hhigh).isFinite

/-- The largest binary32 number on either side converts, to itself. -/
theorem exists_toFloat32_of_largest {x : Matrix Float}
    (h : ∀ v ∈ x.data, v = float32Max ∨ v = -float32Max) :
    ∃ stored, x.toFloat32 true = .ok stored ∧ stored.widened = x := by
  have hrange : ∀ v ∈ x.data, ¬OutOfRange v ∧ widen (narrow v) = v := by
    intro v hv
    rcases h v hv with rfl | rfl
    · exact ⟨not_outOfRange_iff.mpr (by decide), by decide⟩
    · exact ⟨not_outOfRange_iff.mpr (by decide), by decide⟩
  refine ⟨_, toFloat32_of_range fun v hv => (hrange v hv).1, ?_⟩
  obtain ⟨rows, columns, data⟩ := x
  simp only [widened, narrowed, map, Array.map_map, Matrix.mk.injEq, true_and]
  exact Array.map_congr_left (fun v hv => (hrange v hv).2) |>.trans (Array.map_id data)

/-- Binary32 points are stored as they are. Points of another type need leave to be converted, are
refused exactly if an element lies beyond the finite binary32 numbers, the first of these being named
in the refusal, and are stored as the nearest numbers otherwise. So every finite binary32 number
converts from binary64, the largest ones included, and every integer does. -/
theorem toFloat32_accepts_range :
    (∀ (x : Matrix Float32) (allowed : Bool), x.toFloat32 allowed = .ok x) ∧
    (∀ x : Matrix Float, x.ConversionSpec) ∧ (∀ x : Matrix Int32, x.ConversionSpec) ∧
    (∀ x : Matrix Int64, x.ConversionSpec) ∧
    (∀ x : Matrix Float32, x.NoInfinity → x.widened.toFloat32 true = .ok x) ∧
    (∀ x : Matrix Float, (∀ v ∈ x.data, v = float32Max ∨ v = -float32Max) →
      ∃ stored, x.toFloat32 true = .ok stored ∧ stored.widened = x) ∧
    (∀ x : Matrix Int32, ∃ stored, x.toFloat32 true = .ok stored ∧
      ∀ w ∈ stored.data, w.isFinite = true) ∧
    ∀ x : Matrix Int64, ∃ stored, x.toFloat32 true = .ok stored ∧
      ∀ w ∈ stored.data, w.isFinite = true := by
  refine ⟨toFloat32_float32, conversionSpec (by decide), conversionSpec (by decide),
    conversionSpec (by decide), fun x => toFloat32_widened, fun x => exists_toFloat32_of_largest,
    exists_toFloat32_of_integers .int32, exists_toFloat32_of_integers .int64⟩

theorem largest_in_range :
    (∃ stored, (⟨1, 2, #[float32Max, -float32Max]⟩ : Matrix Float).toFloat32 true = .ok stored ∧
      stored.widened = ⟨1, 2, #[float32Max, -float32Max]⟩) ∧
    (⟨1, 1, #[4]⟩ : Matrix Float32).widened.toFloat32 true = .ok ⟨1, 1, #[4]⟩ ∧
    (⟨1, 3, #[0 / 0, 1e39, -1e40]⟩ : Matrix Float).toFloat32 true
      = .error (conversionError .float64 (rangeReason 1e39)) := by
  obtain ⟨-, hfloat, -, -, hfinite, hlargest, -⟩ := toFloat32_accepts_range
  have hnan : ¬OutOfRange (0 / 0) := not_outOfRange_iff.mpr (Or.inl (by decide))
  have hout : OutOfRange 1e39 := Or.inl (by decide +kernel)
  refine ⟨hlargest _ ?_, hfinite _ (by decide), ?_⟩
  · intro v hv
    simpa using hv
  · exact ((hfloat _).names_first _).mpr ⟨1e39, ⟨hout, [0 / 0], [-1e40], rfl,
      fun u hu => by rwa [List.mem_singleton.mp hu]⟩, rfl⟩

end Matrix

end NeighborSearch
