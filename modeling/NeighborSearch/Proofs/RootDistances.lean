import NeighborSearch.Proofs.Shards
import NeighborSearch.Proofs.SquareRoot

/-!
# Distances that are roots

The Euclidean distance is the root of the summed squares, which are a distance of their own. Rounding
may send different sums to the same root, so the two distances need not select the same points; but a
root keeps the order of numbers, so the lists of selected distances correspond:
`euclidean_lists_roots`.
-/

namespace NeighborSearch

open Float.Model (Format UnpackedFloat)
open Float.Model.UnpackedFloat

/-! ## Sums of squares -/

theorem isNaN_or_nonneg_mul_self (x : Float) : (x * x).isNaN = true ∨ 0 ≤ x * x := by
  have hrepresentable := representable64 x
  have hmul : x * x = .ofModel (.pack (mul .binary64 x.toModel.unpack x.toModel.unpack)) := rfl
  cases hu : x.toModel.unpack with
  | notANumber => exact Or.inl (isNaN_mul (Or.inl (isNaN_iff.mpr hu)))
  | zero s =>
    rw [hmul, hu]
    cases s <;> exact Or.inr (by decide)
  | infinity s =>
    rw [hmul, hu]
    cases s <;> exact Or.inr (by decide)
  | finite s m e hm =>
    rw [hu] at hrepresentable
    obtain ⟨p, -, hstands⟩ := mul_spec s s hm hm (double_exponent_le hrepresentable.1 hm)
    have hsign : s * s = .positive := by cases s <;> rfl
    have hnan := (hstands.place_pack (by decide)).1
    rw [hsign] at hstands
    rw [hmul, hu]
    exact Or.inr (hstands.unsigned_pack.nonneg hnan)

namespace Metric

theorem isNaN_or_nonneg_squaresDistance (a b : Point) :
    (squaresDistance a b).isNaN = true ∨ 0 ≤ squaresDistance a b := by
  unfold squaresDistance total
  refine List.foldlRecOn (motive := fun s : Float => s.isNaN = true ∨ 0 ≤ s) _ _ (Or.inr (by decide)) ?_
  intro s hs square hsquare
  obtain ⟨⟨x, y⟩, -, rfl⟩ := List.mem_map.mp hsquare
  rcases hs with hs | hs
  · exact Or.inl (isNaN_add (Or.inl hs))
  · rcases isNaN_or_nonneg_mul_self (x - y) with hxy | hxy
    · exact Or.inl (isNaN_add (Or.inr hxy))
    · exact Or.inr (nonneg_add hs hxy)

/-! ## Reporting zero -/

theorem nonnegative_of_isNaN {d : Float} (h : d.isNaN = true) : nonnegative d = d :=
  if_neg (not_le_of_isNaN (Or.inl h))

theorem nonnegative_of_unsigned {d : Float} (h : Unsigned d) : nonnegative d = d := by
  unfold nonnegative
  split_ifs with hle
  · have hnan := (isNaN_of_le hle).1
    have hzero : place64 d = 0 :=
      le_antisymm ((le_iff_place64 hnan isNaN_zero).mp hle) (h.place_nonneg hnan)
    refine orderKey_injective ?_
    rw [h.orderKey_eq hnan, hzero]
    decide
  · rfl

/-- The root may be taken before zero is reported or afterwards. -/
theorem nonnegative_sqrt {d : Float} (h : d.isNaN = true ∨ 0 ≤ d) :
    nonnegative d.sqrt = (nonnegative d).sqrt := by
  rcases h with hnan | hd
  · rw [nonnegative_of_isNaN hnan, nonnegative_of_isNaN (isNaN_sqrt hnan)]
  · have hnan := (isNaN_of_le hd).2
    rcases ((nonneg_iff_place64 hnan).mp hd).eq_or_lt with hzero | hpos
    · have hle : d ≤ 0 := (le_iff_place64 hnan isNaN_zero).mpr (place64_zero ▸ hzero.ge)
      have hroot : d.sqrt ≤ 0 := by
        have hsqrt : place64 (Float.sqrt 0) = 0 := by decide
        rw [le_iff_place64 (roots_of_nonneg hd).1 isNaN_zero, place64_zero, ← hsqrt]
        exact place64_sqrt_mono hd (by decide) (place64_zero ▸ hzero.ge)
      rw [nonnegative, nonnegative, if_pos hle, if_pos hroot]
      decide
    · have hunsigned := unsigned_of_place_pos hpos
      rw [nonnegative_of_unsigned hunsigned, nonnegative_of_unsigned hunsigned.sqrt]

/-! ## Rooted metrics -/

/-- The metrics whose distance is the root of the summed squares. -/
def RootOfSquares (m : Metric) : Prop := m = .euclidean ∨ m = .minkowski 2

theorem RootOfSquares.formula? {m : Metric} (h : m.RootOfSquares) (a b : Point) :
    m.formula? a b = some (squaresDistance a b).sqrt := by
  rcases h with rfl | rfl
  · rfl
  · have hone : ((2 : Float) == 1) = false := by decide
    have htwo : ((2 : Float) == 2) = true := by decide
    rw [Metric.formula?, minkowskiDistance, hone, htwo]
    rfl

/-- The distance is the root of the squared distance. -/
theorem RootOfSquares.distance? {m : Metric} (h : m.RootOfSquares) (a b : Point) :
    m.distance? a b = (Metric.sqEuclidean.distance? a b).map Float.sqrt := by
  rw [Metric.distance?, h.formula?, Metric.distance?, Metric.formula?, Option.map_some,
    Option.map_some, Option.map_some, nonnegative_sqrt (isNaN_or_nonneg_squaresDistance a b)]

theorem RootOfSquares.measures {m : Metric} (h : m.RootOfSquares) (columns : Nat) :
    m.Measures columns := by
  rcases h with rfl | rfl <;> exact nofun

end Metric

/-! ## Rankings -/

namespace Candidate

/-- The root keeps the order of distances, of which those that are NaN come last. -/
theorem distanceKey_sqrt_le {x y : Float} (hx : Unsigned x) (hy : Unsigned y)
    (h : distanceKey x ≤ distanceKey y) : distanceKey x.sqrt ≤ distanceKey y.sqrt := by
  cases hynan : y.isNaN with
  | true =>
    rw [distanceKey_of_isNaN (isNaN_sqrt hynan)]
    cases hroot : x.sqrt.isNaN with
    | true => rw [distanceKey_of_isNaN hroot]
    | false =>
      rw [distanceKey, hroot, Prod.Lex.toLex_le_toLex]
      exact Or.inl Bool.false_lt_true
  | false =>
    rw [distanceKey_of_unsigned hy hynan] at h
    have hynonneg := hy.nonneg hynan
    cases hxnan : x.isNaN with
    | true =>
      rw [distanceKey_of_isNaN hxnan, Prod.Lex.toLex_le_toLex] at h
      exact absurd h (by simp)
    | false =>
      have hxnonneg := hx.nonneg hxnan
      rw [distanceKey_of_unsigned hx hxnan, Prod.Lex.toLex_le_toLex] at h
      rw [distanceKey_of_unsigned hx.sqrt (roots_of_nonneg hxnonneg).1,
        distanceKey_of_unsigned hy.sqrt (roots_of_nonneg hynonneg).1, Prod.Lex.toLex_le_toLex]
      have hplace : place64 x ≤ place64 y := by simpa using h
      exact Or.inr ⟨rfl, place64_sqrt_mono hxnonneg hynonneg hplace⟩

/-- The candidate at the root of its distance. -/
def root (c : Candidate) : Candidate := ⟨c.distance.sqrt, c.index⟩

theorem le_iff_index_le {a b : Candidate} (h : a.distance = b.distance) :
    a ≤ b ↔ a.index ≤ b.index := by
  rw [le_iff_before, before_iff, rankKey, rankKey, h]
  simp [Prod.Lex.toLex_le_toLex]

/-- Candidates whose distances the root keeps apart are ranked as before. -/
theorem root_le_root {a b : Candidate} (ha : Unsigned a.distance) (hb : Unsigned b.distance)
    (hapart : a.distance.sqrt = b.distance.sqrt → a.distance = b.distance) (h : a ≤ b) :
    a.root ≤ b.root := by
  by_contra hnot
  have hroot : b.root.distance = a.root.distance :=
    distance_eq_of_le (le_of_not_ge hnot) (distanceKey_sqrt_le ha hb (distanceKey_le h))
  have hdistance := hapart hroot.symm
  exact hnot ((le_iff_index_le hroot.symm).mpr ((le_iff_index_le hdistance).mp h))

/-- The root merges no two of these distances. -/
def RootsApart (cs : List Candidate) : Prop :=
  ∀ a ∈ cs, ∀ b ∈ cs, a.distance.sqrt = b.distance.sqrt → a.distance = b.distance

/-- Taking roots keeps the ranking of candidates whose roots are apart. -/
theorem ranking_map_root {cs : List Candidate} (h : Valid cs) (hapart : RootsApart cs) :
    ranking (cs.map root) = (ranking cs).map root := by
  refine (eq_ranking ((ranking_perm cs).map root) ?_).symm
  refine List.pairwise_map.mpr ((pairwise_ranking cs).imp_of_mem ?_)
  intro a b ha hb hab
  have ha := mem_ranking.mp ha
  have hb := mem_ranking.mp hb
  exact root_le_root (h.unsigned a ha) (h.unsigned b hb) (hapart a ha b hb) hab

/-- Taking roots commutes with ranking, as far as the distances go. -/
theorem map_distance_ranking_root {cs : List Candidate} (h : Valid cs) :
    (ranking (cs.map root)).map distance = (ranking cs).map fun c => c.distance.sqrt := by
  refine map_distance_ranking_of_mono ?_ (List.Perm.of_eq (List.map_map ..))
  intro c hc d hd hcd
  exact distanceKey_sqrt_le (h.unsigned c hc) (h.unsigned d hd) hcd

end Candidate

/-- The candidates under the root are those of the summed squares, each at its root. -/
theorem Measured.root {metric : Metric} {reference : Matrix Float32} {query : Point}
    {cs ds : List Candidate} (hmetric : metric.RootOfSquares)
    (hcs : Measured .sqEuclidean reference query cs) (hds : Measured metric reference query ds) :
    ds = cs.map Candidate.root := by
  refine hds.unique ⟨by rw [List.length_map, hcs.length_eq], ?_⟩
  intro j hj
  obtain ⟨point, d, hpoint, hd, hc⟩ := hcs.entry j hj
  refine ⟨point, d.sqrt, hpoint, ?_, ?_⟩
  · rw [hmetric.distance?, hd]
    rfl
  · rw [List.getElem?_map, hc]
    rfl

/-- No matter how the nearest rows are selected, they are those of the ranking. -/
theorem Selection.nearestRows?_eq (S : Selection) (metric : Metric) (reference : Matrix Float32)
    (k : Nat) (query : Point) : S.nearestRows? metric reference k query
      = reference.rows?.bind fun points => nearest? metric points k query := by
  unfold nearestRows? nearest?
  cases reference.rows? with
  | none => rfl
  | some points =>
    simp only [Option.bind_eq_bind, Option.bind_some, S.nearest_eq]
    cases candidates? metric points query <;> rfl

theorem exists_nearest? {metric : Metric} {reference : Matrix Float32} {query : Point}
    (href : reference.WellFormed) (hcolumns : reference.columns = query.length)
    (hmetric : metric.Measures query.length) (k : Nat) :
    ∃ cs, Measured metric reference query cs ∧ ∀ S : Selection,
      S.nearestRows? metric reference k query = some ((Candidate.ranking cs).take k) := by
  obtain ⟨cs, hcs, hrow⟩ := Selection.byRanking.exists_nearestRows? href hcolumns hmetric k
  refine ⟨cs, hcs, ?_⟩
  intro S
  rw [S.nearestRows?_eq, ← Selection.byRanking.nearestRows?_eq, hrow]

/-- Two points that are not equally far from the origin, but whose roots are. -/
def merging : Matrix Float32 := ⟨2, 2, #[1, Float32.ofBits 0x32800000, 1, 0]⟩

/-- Two squared distances whose roots are one number. -/
theorem merging_indices {metric : Metric} (hmetric : metric.RootOfSquares) (S : Selection) :
    (S.nearestRows? .sqEuclidean merging 2 [0, 0]).map (·.map Candidate.index) = some [1, 0] ∧
      (S.nearestRows? metric merging 2 [0, 0]).map (·.map Candidate.index) = some [0, 1] := by
  rw [S.nearestRows?_eq, S.nearestRows?_eq]
  rcases hmetric with rfl | rfl <;> decide +kernel

/-- The distances of the nearest points are the roots of those that summed squares select. Where the
root keeps the distances apart, the points are the same ones in the same order; where it does not,
their indices may differ. -/
theorem euclidean_lists_roots {metric : Metric} (hmetric : metric.RootOfSquares) :
    (∀ (reference : Matrix Float32) (query : Point) (k : Nat), reference.WellFormed →
      reference.columns = query.length →
      ∃ row squares, (∀ S : Selection, S.nearestRows? metric reference k query = some row) ∧
        (∀ S : Selection, S.nearestRows? .sqEuclidean reference k query = some squares) ∧
        row.map Candidate.distance = squares.map (fun c => c.distance.sqrt) ∧
        ∀ cs, Measured .sqEuclidean reference query cs → Candidate.RootsApart cs →
          row = squares.map Candidate.root) ∧
    ∃ (reference : Matrix Float32) (query : Point) (k : Nat), reference.WellFormed ∧
      reference.columns = query.length ∧
      ∀ S : Selection, (S.nearestRows? metric reference k query).map (·.map Candidate.index)
        ≠ (S.nearestRows? .sqEuclidean reference k query).map (·.map Candidate.index) := by
  constructor
  · intro reference query k href hcolumns
    obtain ⟨cs, hcs, hsquares⟩ :=
      @exists_nearest? .sqEuclidean _ _ href hcolumns nofun k
    obtain ⟨ds, hds, hrow⟩ := exists_nearest? href hcolumns (hmetric.measures _) k
    obtain rfl := hcs.root hmetric hds
    refine ⟨_, _, hrow, hsquares, ?_, ?_⟩
    · rw [List.map_take, Candidate.map_distance_ranking_root hcs.valid, List.map_take]
    · intro cs' hcs' hapart
      obtain rfl := hcs.unique hcs'
      rw [Candidate.ranking_map_root hcs.valid hapart, List.map_take]
  · refine ⟨merging, [0, 0], 2, rfl, rfl, ?_⟩
    intro S
    obtain ⟨hsquares, hrow⟩ := merging_indices hmetric S
    rw [hsquares, hrow]
    decide

theorem three_four_lists_roots :
    ∃ row squares : List Candidate,
      Selection.byRanking.nearestRows? .euclidean ⟨2, 1, #[4, 3]⟩ 2 [0] = some row ∧
      Selection.byRanking.nearestRows? .sqEuclidean ⟨2, 1, #[4, 3]⟩ 2 [0] = some squares ∧
      row.map Candidate.distance = squares.map (fun c => c.distance.sqrt) ∧
      row = squares.map Candidate.root := by
  have hcolumns : 1 = ([0] : Point).length := by simp only [List.length_cons, List.length_nil]
  obtain ⟨hlists, -⟩ := @euclidean_lists_roots .euclidean (Or.inl rfl)
  obtain ⟨row, squares, hrow, hsquares, hdistances, hrows⟩ :=
    hlists ⟨2, 1, #[4, 3]⟩ [0] 2 rfl hcolumns
  have hcs : Measured .sqEuclidean ⟨2, 1, #[4, 3]⟩ [0] [⟨16, 0⟩, ⟨9, 1⟩] :=
    measured_of_candidates? rfl (by decide +kernel)
  have hapart : Candidate.RootsApart [⟨16, 0⟩, ⟨9, 1⟩] := by
    unfold Candidate.RootsApart
    decide +kernel
  exact ⟨row, squares, hrow _, hsquares _, hdistances, hrows _ hcs hapart⟩

end NeighborSearch
