import NeighborSearch.Proofs.Answer
import NeighborSearch.Proofs.Rounding

/-!
# Nearest neighbors

A query that counts the points themselves lists, for every query point, exactly the nearest stored
points in order. Narrowing the distances keeps this order, so the distances that are reported ascend
as well.
-/

namespace NeighborSearch

/-- Distances as they are reported: none is negative, they never go down, and NaN comes last. -/
structure Ascending (ds : List Float32) : Prop where
  nonnegative : ∀ d ∈ ds, d.isNaN = true ∨ 0 ≤ d
  ordered : ds.Pairwise fun a b => b.isNaN = true ∨ a.isNaN = false ∧ a ≤ b

theorem Unsigned.narrow_nonneg {x : Float} (h : Unsigned x) (hx : x.isNaN = false) :
    0 ≤ narrow x := by
  have hzero : (0 : Float) ≤ x := (nonneg_iff_place64 hx).mpr (h.place_nonneg hx)
  have hnarrow : narrow 0 = 0 := by decide
  rw [← hnarrow]
  exact narrow_le_narrow isNaN_zero hx hzero

namespace Candidate

/-- Who precedes is no farther away, except that NaN has no size. -/
theorem Precedes.distance_le {a b : Candidate} (h : a.Precedes b)
    (hb : b.distance.isNaN = false) :
    a.distance.isNaN = false ∧ a.distance ≤ b.distance := by
  rcases h with ⟨-, hnan⟩ | hlt | ⟨heq | ⟨-, hnan⟩, -⟩
  · rw [hb] at hnan
    cases hnan
  · cases ha : a.distance.isNaN with
    | true => exact absurd hlt (not_lt_of_isNaN ha)
    | false =>
      rw [lt_iff_place64 ha hb] at hlt
      exact ⟨rfl, (le_iff_place64 ha hb).mpr hlt.le⟩
  · cases ha : a.distance.isNaN with
    | true =>
      rw [beq_eq_false_of_isNaN ha] at heq
      cases heq
    | false =>
      rw [beq_iff_place64 ha hb] at heq
      exact ⟨rfl, (le_iff_place64 ha hb).mpr heq.le⟩
  · rw [hb] at hnan
    cases hnan

/-- Who precedes is reported no farther away. -/
theorem Precedes.narrow_le {a b : Candidate} (h : a.Precedes b) :
    (narrow b.distance).isNaN = true ∨
      (narrow a.distance).isNaN = false ∧ narrow a.distance ≤ narrow b.distance := by
  rw [isNaN_narrow, isNaN_narrow]
  cases hb : b.distance.isNaN with
  | true => exact Or.inl rfl
  | false =>
    obtain ⟨ha, hle⟩ := h.distance_le hb
    exact Or.inr ⟨ha, narrow_le_narrow ha hb hle⟩

/-- Reported distances ascend as the exact ones do, with NaN at the end. -/
theorem ascending_narrow {row : List Candidate} (hrow : ∀ c ∈ row, Unsigned c.distance)
    (hordered : row.Pairwise Precedes) : Ascending (row.map fun c => narrow c.distance) := by
  refine ⟨?_, List.pairwise_map.mpr (hordered.imp Precedes.narrow_le)⟩
  intro d hd
  obtain ⟨c, hc, rfl⟩ := List.mem_map.mp hd
  rw [isNaN_narrow]
  cases hnan : c.distance.isNaN with
  | true => exact Or.inl rfl
  | false => exact Or.inr ((hrow c hc).narrow_nonneg hnan)

end Candidate

/-- `row` is the list of the `k` nearest rows of `reference`. There is only one such list, and
every selection finds it. -/
structure Nearest (metric : Metric) (reference : Matrix Float32) (query : Point) (k : Nat)
    (row : List Candidate) : Prop where
  leading : ∃ cs, Measured metric reference query cs ∧ Candidate.Leading k cs row ∧
    (∀ other, Candidate.Leading k cs other → other = row) ∧
    ∀ S : Selection, S.nearest k cs = row
  distinct : (row.map Candidate.index).Nodup
  inRange : ∀ c ∈ row, c.index < reference.rows
  reported : Ascending (row.map fun c => narrow c.distance)

/-- The first candidates in the ranking are the nearest ones. -/
theorem Measured.nearest {metric : Metric} {reference : Matrix Float32} {query : Point} {k : Nat}
    {cs : List Candidate} (h : Measured metric reference query cs) (hk : k ≤ reference.rows) :
    Nearest metric reference query k ((Candidate.ranking cs).take k) := by
  have hleading := Candidate.leading_take_ranking h.valid (h.length_eq.symm ▸ hk)
  have hvalid := h.valid.ranking.sublist (List.take_sublist k _)
  refine ⟨⟨cs, h, hleading, ?_, ?_⟩, hvalid.distinct, ?_, ?_⟩
  · intro other hother
    exact hother.eq h.valid
  · intro S
    exact S.nearest_eq k cs
  · intro c hc
    exact h.index_lt (hleading.subset hc)
  · exact Candidate.ascending_narrow hvalid.unsigned hleading.ordered

/-- The answer has a row for every query point, and each row lists the `k` nearest points. -/
structure Neighbors.ListsNearest (found : Neighbors) (metric : Metric)
    (reference queries : Matrix Float32) (k : Nat) (withDistances : Bool) : Prop where
  shaped : found.Shaped queries.rows k withDistances
  rows : ∀ i < queries.rows, ∃ query row, queries.row? i = some query ∧ found.Lists i row ∧
    Nearest metric reference query k row

namespace Estimator

variable {e : Estimator} {s : FittedSet} {n : Option Nat} {k : Nat}

/-- Both ways of asking for neighbors find the nearest ones: with points of any element type that
can be stored, and with the stored points themselves. -/
theorem queries_list_nearest (he : e.Reachable) (hs : e.fitted = some s)
    (hmetric : e.config.metric.Fits s.data.columns) (hn : n.getD e.config.neighbors = k)
    (hpos : 1 ≤ k) (hk : k ≤ s.data.rows) (withDistances : Bool) :
    (∀ {α : Type} [Element α] (x : Matrix α) (q : Matrix Float32), x.WellFormed →
      x.columns = s.data.columns → x.toFloat32 true = .ok q →
      ∃ found, (e.query x n withDistances).result = .ok found ∧
        found.ListsNearest e.config.metric s.data q k withDistances) ∧
    ∃ found, (e.queryFitted n .include withDistances).result = .ok found ∧
      found.ListsNearest e.config.metric s.data s.data k withDistances := by
  constructor
  · intro α _ x q hx hcolumns hq
    obtain ⟨found, hfound, hshaped, hrows⟩ :=
      query_answers he hs hmetric.measures hx hcolumns hq hn hpos hk withDistances
    obtain rfl := Matrix.toFloat32_eq_ok hq
    refine ⟨found, hfound, hshaped, ?_⟩
    intro i hi
    obtain ⟨cs, hcs, hlists⟩ := hrows i hi
    exact ⟨_, _, Matrix.row?_eq hx.narrowed hi, hlists, hcs.nearest hk⟩
  · have hcount : k ≤ SelfMatch.candidateCount .include s.data.rows := hk
    obtain ⟨found, hfound, hshaped, hrows⟩ :=
      queryFitted_answers he hs hmetric.measures hn hpos hcount withDistances
    refine ⟨found, hfound, hshaped, ?_⟩
    intro i hi
    obtain ⟨cs, hcs, hlists⟩ := hrows i hi
    exact ⟨_, _, Matrix.row?_eq (he.proper hs).wellFormed hi, hlists, hcs.nearest hk⟩

/-- Four overlapping points, queried with another point and among themselves. -/
theorem overlapping_lists_nearest :
    (∃ found, (ofOverlapping.query (⟨1, 1, #[5]⟩ : Matrix Float) (some 2) true).result = .ok found ∧
      found.ListsNearest (.minkowski 2) overlapping.narrowed
        (⟨1, 1, #[5]⟩ : Matrix Float).narrowed 2 true) ∧
    ∃ found, (ofOverlapping.queryFitted (some 2) .include true).result = .ok found ∧
      found.ListsNearest (.minkowski 2) overlapping.narrowed overlapping.narrowed 2 true := by
  have h := queries_list_nearest (n := some 2) (k := 2) reachable_ofOverlapping fitted_ofOverlapping
    fits_ofOverlapping rfl (by decide) (by decide) true
  exact ⟨h.1 ⟨1, 1, #[5]⟩ _ rfl rfl rfl, h.2⟩

end Estimator

end NeighborSearch
