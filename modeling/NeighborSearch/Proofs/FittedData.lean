import NeighborSearch.Proofs.StoredRange

/-!
# Points that come back

Stored points can be had back in the element type in which they were given. Binary32 points come back
as they were. In the other types they have been rounded to binary32, integers up to three times, and
come back within a small distance: `fitted_data_comes_back`. Integers of a size of at most `2 ^ 24`
are not moved.
-/

namespace NeighborSearch

/-- As near to `a` as stored points have to come back. -/
def Near (b a : ℚ) : Prop := |b - a| ≤ 1e-5 + 1e-4 * |a|

theorem Near.refl (a : ℚ) : Near a a := by
  rw [Near, sub_self, abs_zero]
  positivity

/-! ## There and back -/

/-- Within the range, binary32 keeps a number up to the tolerance. -/
theorem near_narrow {x : Float} (hlow : -float32Max ≤ x) (hhigh : x ≤ float32Max) :
    Near (value64 (widen (narrow x))) (value64 x) := by
  have herror := narrow_error hlow hhigh
  have hleast : (2 : ℚ) ^ (-150 : Int) ≤ 1e-5 := by norm_num
  have hshare : |value64 x| * (2 : ℚ) ^ (-24 : Int) ≤ 1e-4 * |value64 x| := by
    rw [mul_comm]
    exact mul_le_mul_of_nonneg_right (by norm_num) (abs_nonneg _)
  rw [Near, value64_widen, abs_sub_comm]
  exact herror.trans (add_le_add hleast hshare)

/-- What comes back for a binary64 number. -/
structure ComesBack (x y : Float) : Prop where
  nan : y.isNaN = x.isNaN
  number : x.isNaN = false → x.isFinite = true ∧ y.isFinite = true ∧ Near (value64 y) (value64 x)

theorem comesBack_of_range {x : Float} (h : ¬OutOfRange x) : ComesBack x (widen (narrow x)) := by
  refine ⟨by rw [isNaN_widen_eq, isNaN_narrow], ?_⟩
  intro hnan
  rcases not_outOfRange_iff.mp h with hx | ⟨hlow, hhigh⟩
  · rw [hnan] at hx
    cases hx
  · exact ⟨isFinite_of_range hlow hhigh,
      isFinite_widen (nearestFloat32_narrow hlow hhigh).isFinite, near_narrow hlow hhigh⟩

namespace Integers

variable {α : Type} [Element α] (I : Integers α)
include I

/-- An element as it comes back: rounded to binary64, to binary32 and to an integer of the range. -/
theorem toInt_back (v : α) :
    I.toInt (Element.ofFloat (widen (narrow (Element.toFloat v))))
      = nearestInt I.low I.high (widen (narrow (floatOfInt (I.toInt v)))) := by
  rw [I.toInt_ofFloat, I.toFloat_eq]

theorem isFinite_back (v : α) : (widen (narrow (floatOfInt (I.toInt v)))).isFinite = true := by
  obtain ⟨hlow, hhigh⟩ := floatOfInt_range (I.fits v)
  exact isFinite_widen (nearestFloat32_narrow hlow hhigh).isFinite

/-- An integer of a size of at most `2 ^ 24` comes back as it was. -/
theorem back_eq {v : α} (h : |I.toInt v| ≤ 2 ^ 24) :
    Element.ofFloat (widen (narrow (Element.toFloat v))) = v := by
  obtain ⟨hlow, hhigh⟩ := floatOfInt_range (I.fits v)
  have hvalue : value64 (floatOfInt (I.toInt v)) = I.toInt v :=
    value64_floatOfInt (h.trans (by norm_num))
  have hback : value64 (widen (narrow (floatOfInt (I.toInt v)))) = I.toInt v := by
    rw [value64_widen, value32_narrow_of_whole hlow hhigh hvalue h]
  refine I.injective ?_
  rw [I.toInt_back]
  exact nearestInt_of_whole (I.bounds v).1 (I.bounds v).2 (I.isFinite_back v) hback

/-- Beyond `2 ^ 24` the size of an integer outweighs the last rounding. -/
theorem near_back (v : α) :
    Near (I.toInt (Element.ofFloat (widen (narrow (Element.toFloat v))))) (I.toInt v) := by
  rcases le_or_gt |I.toInt v| (2 ^ 24) with hsmall | hlarge
  · rw [I.back_eq hsmall]
    exact .refl _
  · obtain ⟨hlow, hhigh⟩ := floatOfInt_range (I.fits v)
    have hfloat := (floatOfInt_error (I.fits v)).trans
      (add_le_add_left (zpow_le_one_of_nonpos₀ (by norm_num) (by norm_num)) _)
    have hnarrow := (narrow_error hlow hhigh).trans
      (add_le_add_left (zpow_le_one_of_nonpos₀ (by norm_num) (by norm_num)) _)
    have hround := nearestInt_near (I.bounds v).1 (I.bounds v).2 (I.isFinite_back v)
    rw [value64_widen] at hround
    rw [Near, I.toInt_back]
    have hlarge : (2 : ℚ) ^ 24 < |(I.toInt v : ℚ)| := by exact_mod_cast hlarge
    set n := (I.toInt v : ℚ)
    set f := value64 (floatOfInt (I.toInt v))
    set w := value32 (narrow (floatOfInt (I.toInt v)))
    have hsize : |f| ≤ |n| + |n - f| := by
      calc |f| = |n - (n - f)| := by ring_nf
        _ ≤ |n| + |n - f| := abs_sub _ _
    have hmoved : |w - n| ≤ |f - w| + |n - f| := by
      calc |w - n| = |(f - w) + (n - f)| := by rw [abs_sub_comm]; ring_nf
        _ ≤ |f - w| + |n - f| := abs_add_le _ _
    norm_num at hfloat hnarrow hlarge ⊢
    linarith

end Integers

/-! ## Stored points -/

namespace Estimator

variable {e : Estimator}

/-- Where a fit succeeds, every element comes back after the same conversions. -/
theorem fittedDataAs_of_fit {α : Type} [Element α] {x : Matrix α}
    (h : (e.fit x true).2.result = .ok ()) :
    (∀ v ∈ x.data, elementType α = .float32 ∨ ¬OutOfRange (Element.toFloat v)) ∧
    (e.fit x true).1.fittedDataAs α
      = .ok (x.map fun v => Element.ofFloat (widen (narrow (Element.toFloat v)))) := by
  rcases e.fit_cases x true with ⟨haccepts, -, hstate⟩ | ⟨-, ⟨err, herr, -⟩, -⟩
  · constructor
    · intro v hv
      rcases haccepts.storable with htype | ⟨-, hrange⟩
      · exact Or.inl htype
      · exact Or.inr (not_outOfRange_iff.mpr (hrange v hv))
    · have hdata : (e.fit x true).1.fittedData = .ok x.narrowed := by rw [hstate]; rfl
      rw [fittedDataAs, hdata]
      simp only [Except.map, Matrix.ofFloat32, Matrix.narrowed, Matrix.map, Array.map_map]
      rfl
  · rw [herr] at h
    cases h

/-- Integers come back within the tolerance, and small ones exactly. -/
theorem integers_come_back {α : Type} [Element α] (I : Integers α) {x : Matrix α}
    (h : (e.fit x true).2.result = .ok ()) :
    ∃ y, (e.fit x true).1.fittedDataAs α = .ok y ∧
      x.Matches (fun a b => Near (I.toInt b) (I.toInt a)) y ∧
      ((∀ a ∈ x.data, |I.toInt a| ≤ 2 ^ 24) → y = x) := by
  refine ⟨_, (fittedDataAs_of_fit h).2, Matrix.matches_map fun v _ => I.near_back v, ?_⟩
  intro hsmall
  obtain ⟨rows, columns, data⟩ := x
  simp only [Matrix.map, Matrix.mk.injEq, true_and]
  exact (Array.map_congr_left fun v hv => I.back_eq (hsmall v hv)).trans (Array.map_id data)

/-- Stored points come back in the type in which they were given: binary32 points as they were, and
the elements of other types nearly so, NaN as NaN. If no integer exceeds `2 ^ 24` in size, integers
come back exactly. -/
theorem fitted_data_comes_back (e : Estimator) :
    (∀ x : Matrix Float32, (e.fit x true).2.result = .ok () →
      (e.fit x true).1.fittedDataAs Float32 = .ok x) ∧
    (∀ x : Matrix Float, (e.fit x true).2.result = .ok () →
      ∃ y, (e.fit x true).1.fittedDataAs Float = .ok y ∧ x.Matches ComesBack y) ∧
    (∀ x : Matrix Int32, (e.fit x true).2.result = .ok () →
      ∃ y, (e.fit x true).1.fittedDataAs Int32 = .ok y ∧
        x.Matches (fun a b => Near b.toInt a.toInt) y ∧
        ((∀ a ∈ x.data, |a.toInt| ≤ 2 ^ 24) → y = x)) ∧
    ∀ x : Matrix Int64, (e.fit x true).2.result = .ok () →
      ∃ y, (e.fit x true).1.fittedDataAs Int64 = .ok y ∧
        x.Matches (fun a b => Near b.toInt a.toInt) y ∧
        ((∀ a ∈ x.data, |a.toInt| ≤ 2 ^ 24) → y = x) := by
  refine ⟨?_, ?_, fun x => integers_come_back .int32, fun x => integers_come_back .int64⟩
  · intro x h
    have hid : (fun v : Float32 => (Element.ofFloat (widen (narrow (Element.toFloat v))) : Float32))
        = id := by
      funext v
      change narrow (widen (narrow (widen v))) = v
      rw [narrow_widen, narrow_widen]
    rw [(fittedDataAs_of_fit h).2, hid, Matrix.map, Array.map_id]
  · intro x h
    obtain ⟨hrange, hback⟩ := fittedDataAs_of_fit h
    refine ⟨_, hback, Matrix.matches_map fun v hv => ?_⟩
    exact comesBack_of_range ((hrange v hv).resolve_left (by decide))

theorem extreme_data_comes_back :
    (({} : Estimator).fit overlapping true).1.fittedDataAs Float32 = .ok overlapping ∧
    (∃ y, (({} : Estimator).fit (⟨1, 2, #[0.1, 0 / 0]⟩ : Matrix Float) true).1.fittedDataAs Float
      = .ok y ∧ (⟨1, 2, #[0.1, 0 / 0]⟩ : Matrix Float).Matches ComesBack y) ∧
    (({} : Estimator).fit (⟨1, 1, #[-16777216]⟩ : Matrix Int32) true).1.fittedDataAs Int32
      = .ok ⟨1, 1, #[-16777216]⟩ ∧
    ∃ y, (({} : Estimator).fit (⟨1, 1, #[Int64.maxValue]⟩ : Matrix Int64) true).1.fittedDataAs Int64
      = .ok y ∧ (⟨1, 1, #[Int64.maxValue]⟩ : Matrix Int64).Matches
        (fun a b => Near b.toInt a.toInt) y := by
  obtain ⟨hsame, hfloat, hshort, hlong⟩ := fitted_data_comes_back {}
  have hdigits : ∀ a ∈ #[(-16777216 : Int32)], |a.toInt| ≤ 2 ^ 24 := by
    intro a ha
    rw [Array.mem_singleton.mp ha, show (-16777216 : Int32).toInt = -16777216 by decide]
    norm_num
  refine ⟨hsame _ rfl, hfloat _ rfl, ?_, ?_⟩
  · obtain ⟨y, hy, -, hequal⟩ := hshort ⟨1, 1, #[-16777216]⟩ rfl
    rwa [hequal hdigits] at hy
  · obtain ⟨y, hy, hnear, -⟩ := hlong ⟨1, 1, #[Int64.maxValue]⟩ rfl
    exact ⟨y, hy, hnear⟩

end Estimator

end NeighborSearch
