import NeighborSearch.Proofs.FiniteNumbers
import NeighborSearch.Proofs.NotANumber

/-!
# The distance of a point from itself

All gaps between a point with finite coordinates and itself are zero, and zero goes through sums,
roots, powers and quotients. So the distance is exactly zero under every metric that starts from
gaps. The two angular metrics do not, and rounding may put a point at a distance from itself there.
-/

namespace NeighborSearch

/-! ## Points with finite coordinates -/

/-- All coordinates of the point are finite. -/
def FinitePoint (a : Point) : Prop := ∀ v ∈ a, v.isFinite = true

instance (a : Point) : Decidable (FinitePoint a) :=
  inferInstanceAs (Decidable (∀ v ∈ a, v.isFinite = true))

variable {a : Point}

/-- Beside itself, a finite point has pairs of equal finite coordinates. -/
theorem FinitePoint.coordinatePairs (h : FinitePoint a) {pair : Float × Float}
    (hpair : pair ∈ coordinatePairs a a) : ∃ x, x.isFinite = true ∧ pair = (x, x) := by
  rw [NeighborSearch.coordinatePairs, List.zip_map'] at hpair
  obtain ⟨v, hv, rfl⟩ := List.mem_map.mp hpair
  exact ⟨widen v, isFinite_widen (h v hv), rfl⟩

/-- A sum over the coordinates vanishes if every term does. -/
theorem FinitePoint.total_eq_zero (h : FinitePoint a) (ha : a ≠ []) {f : Float × Float → Float}
    (hf : ∀ x, x.isFinite = true → f (x, x) = 0) :
    total ((NeighborSearch.coordinatePairs a a).map f) = 0 := by
  refine NeighborSearch.total_eq_zero ?_ ?_
  · intro d hd
    obtain ⟨pair, hpair, rfl⟩ := List.mem_map.mp hd
    obtain ⟨x, hx, rfl⟩ := h.coordinatePairs hpair
    exact hf x hx
  · rw [ne_eq, List.map_eq_nil_iff, NeighborSearch.coordinatePairs, List.zip_map',
      List.map_eq_nil_iff]
    exact ha

/-! ## Formulas -/

namespace Metric

theorem squaresDistance_self (h : FinitePoint a) (ha : a ≠ []) : squaresDistance a a = 0 := by
  refine h.total_eq_zero ha ?_
  intro x hx
  simp only [sub_self_of_isFinite hx]
  decide

theorem gapsDistance_self (h : FinitePoint a) (ha : a ≠ []) : gapsDistance a a = 0 :=
  h.total_eq_zero ha fun _ hx => gap_self hx

theorem largestGap_self (h : FinitePoint a) : largestGap a a = 0 := by
  refine List.foldlRecOn (motive := fun s => s = 0) _ _ rfl ?_
  rintro s rfl pair hpair
  obtain ⟨x, hx, rfl⟩ := h.coordinatePairs hpair
  dsimp only
  rw [gap_self hx, if_neg (by decide)]

theorem powersDistance_self (h : FinitePoint a) (ha : a ≠ []) {p : Float} (hp : 0 < p)
    (hinf : p.isInf = false) : powersDistance p a a = 0 := by
  rw [powersDistance, h.total_eq_zero ha, power_zero (reciprocal_pos hp hinf)]
  intro x hx
  simp only [gap_self hx, power_zero hp]

theorem exponent_pos {p : Float} (h : (minkowski p).validate = .ok ()) : 0 < p := by
  have hone : 0 < place64 1 := by decide
  obtain ⟨hnan, hrange⟩ := validate_minkowski h
  rw [le_iff_place64 (by decide) hnan] at hrange
  rw [pos_iff_place64 hnan]
  omega

theorem minkowskiDistance_self (h : FinitePoint a) (ha : a ≠ []) {p : Float}
    (hvalid : (minkowski p).validate = .ok ()) : minkowskiDistance p a a = 0 := by
  unfold minkowskiDistance
  split_ifs with hone htwo hinf
  · exact gapsDistance_self h ha
  · rw [squaresDistance_self h ha]
    decide
  · exact largestGap_self h
  · exact powersDistance_self h ha (exponent_pos hvalid) (by simpa using hinf)

theorem canberraDistance_self (h : FinitePoint a) (ha : a ≠ []) : canberraDistance a a = 0 := by
  refine h.total_eq_zero ha ?_
  intro x hx
  have hsize := nonneg_abs (isNaN_of_isFinite hx)
  dsimp only
  split_ifs with hzero
  · rfl
  · rw [gap_self hx]
    exact zero_div_of_nonneg (nonneg_add hsize hsize) (by simpa using hzero)

theorem brayCurtisDistance_self (h : FinitePoint a) : brayCurtisDistance a a = 0 := by
  unfold brayCurtisDistance
  set sums := (coordinatePairs a a).foldl _ _ with hfold
  have hsums : sums.1 = 0 ∧ 0 ≤ sums.2 := by
    rw [hfold]
    refine List.foldlRecOn (motive := fun s : Float × Float => s.1 = 0 ∧ 0 ≤ s.2) _ _
      ⟨rfl, by decide⟩ ?_
    rintro ⟨gaps, sizes⟩ ⟨rfl, hsizes⟩ pair hpair
    obtain ⟨x, hx, rfl⟩ := h.coordinatePairs hpair
    refine ⟨?_, nonneg_add hsizes (nonneg_abs (isNaN_double hx))⟩
    dsimp only
    rw [gap_self hx]
    decide
  dsimp only
  split_ifs with hzero
  · rfl
  · rw [hsums.1]
    exact zero_div_of_nonneg hsums.2 (by simpa using hzero)

theorem greatCircle_self {lat lon : Float} (hlat : lat.isFinite = true) (hlon : lon.isFinite = true) :
    greatCircle lat lon lat lon = 0 := by
  obtain ⟨hlow, hhigh⟩ := cosine_bounds hlat
  have hsine : sine (0 * 0.5) = 0 := by decide
  unfold greatCircle
  rw [sub_self_of_isFinite hlat, sub_self_of_isFinite hlon, hsine]
  dsimp only
  rcases mul_zero_of_isFinite (isFinite_mul_self hlow hhigh) with hzero | hzero <;> rw [hzero] <;>
    decide

theorem greatCircleDistance?_self (hlength : 2 ≤ a.length) (h : FinitePoint a) :
    greatCircleDistance? a a = some 0 := by
  match a with
  | lat :: lon :: rest =>
    have hlat := isFinite_widen (h lat List.mem_cons_self)
    have hlon := isFinite_widen (h lon (List.mem_cons_of_mem _ List.mem_cons_self))
    rw [greatCircleDistance?, greatCircle_self hlat hlon]
  | [lat] => simp at hlength
  | [] => simp at hlength

/-- The metrics under which a point with finite coordinates is at no distance from itself. -/
def Reflexive : Metric → Prop
  | .cosine | .correlation => False
  | _ => True

/-- Under every other metric than those by angle, a finite point is at distance zero from itself. -/
theorem distance?_self {m : Metric} (hvalid : m.validate = .ok ()) (hm : m.Reflexive)
    (hlength : m = .haversine → 2 ≤ a.length) (ha : a ≠ []) (h : FinitePoint a) :
    m.distance? a a = some 0 := by
  have hformula : m.formula? a a = some 0 := by
    cases m with
    | euclidean =>
      rw [formula?, squaresDistance_self h ha]
      decide
    | sqEuclidean => rw [formula?, squaresDistance_self h ha]
    | manhattan => rw [formula?, gapsDistance_self h ha]
    | chebyshev => rw [formula?, largestGap_self h]
    | minkowski p => rw [formula?, minkowskiDistance_self h ha hvalid]
    | cosine => exact hm.elim
    | correlation => exact hm.elim
    | canberra => rw [formula?, canberraDistance_self h ha]
    | brayCurtis => rw [formula?, brayCurtisDistance_self h]
    | haversine => exact greatCircleDistance?_self (hlength rfl) h
  rw [distance?, hformula]
  decide

end Metric

end NeighborSearch
