import NeighborSearch.Proofs.Arithmetic
import NeighborSearch.Proofs.Checks
import NeighborSearch.Proofs.Nearest

/-!
# Coordinates that are not numbers

A formula that takes every coordinate into a sum is NaN as soon as one coordinate is. The exceptions
are the two angular distances of a point without direction, which are one whatever the other point
is. Under all these metrics a stored point with such a coordinate is listed after every point at a
distance that is a number. A largest gap passes over NaN, and so does the bound in the great-circle
formula; nothing is said here about the metrics that use them.
-/

namespace NeighborSearch

/-- Some coordinate of the point is not a number. -/
def HasNaN (a : Point) : Prop := ∃ v ∈ a, v.isNaN = true

instance (a : Point) : Decidable (HasNaN a) :=
  inferInstanceAs (Decidable (∃ v ∈ a, v.isNaN = true))

/-- One of the two coordinates is not a number. -/
def PairNaN (pair : Float × Float) : Prop := pair.1.isNaN = true ∨ pair.2.isNaN = true

theorem mem_coordinatePairs {a b : Point} {i : Nat} (ha : i < a.length) (hb : i < b.length) :
    (widen a[i], widen b[i]) ∈ coordinatePairs a b := by
  have hi : i < (coordinatePairs a b).length := by
    simp only [coordinatePairs, List.length_zip, List.length_map]
    omega
  have hpair : (coordinatePairs a b)[i] = (widen a[i], widen b[i]) := by
    simp only [coordinatePairs, List.getElem_zip, List.getElem_map]
  rw [← hpair]
  exact List.getElem_mem hi

theorem exists_pairNaN {a b : Point} (hlength : a.length = b.length) (h : HasNaN a ∨ HasNaN b) :
    ∃ pair ∈ coordinatePairs a b, PairNaN pair := by
  rcases h with ⟨v, hv, hnan⟩ | ⟨v, hv, hnan⟩
  · obtain ⟨i, hi, rfl⟩ := List.getElem_of_mem hv
    exact ⟨_, mem_coordinatePairs hi (hlength ▸ hi), Or.inl (isNaN_widen hnan)⟩
  · obtain ⟨i, hi, rfl⟩ := List.getElem_of_mem hv
    exact ⟨_, mem_coordinatePairs (hlength ▸ hi) hi, Or.inr (isNaN_widen hnan)⟩

/-! ## Formulas -/

/-- What one element brings about and every step keeps holds at the end. -/
theorem foldl_of_mem {σ τ : Type} {f : σ → τ → σ} {P : σ → Prop} {Q : τ → Prop}
    (hmeet : ∀ s x, Q x → P (f s x)) (hkeep : ∀ s x, P s → P (f s x)) {xs : List τ}
    (h : ∃ x ∈ xs, Q x) (s : σ) : P (xs.foldl f s) := by
  obtain ⟨x, hx, hQ⟩ := h
  obtain ⟨before, after, rfl⟩ := List.append_of_mem hx
  rw [List.foldl_append, List.foldl_cons]
  exact List.foldlRecOn after f (hmeet _ x hQ) fun s hs y _ => hkeep s y hs

theorem isNaN_total_map {f : Float × Float → Float} (hf : ∀ pair, PairNaN pair → (f pair).isNaN = true)
    {pairs : List (Float × Float)} (h : ∃ pair ∈ pairs, PairNaN pair) :
    (total (pairs.map f)).isNaN = true := by
  rw [total, List.foldl_map]
  refine foldl_of_mem (P := fun s : Float => s.isNaN = true) ?_ ?_ h _
  · intro s pair hpair
    exact isNaN_add (Or.inr (hf pair hpair))
  · intro s pair hs
    exact isNaN_add (Or.inl hs)

theorem isNaN_gap {x y : Float} (h : x.isNaN = true ∨ y.isNaN = true) : (gap x y).isNaN = true :=
  isNaN_abs (isNaN_sub h)

theorem isNaN_power {base exponent : Float} (hbase : base.isNaN = true)
    (hexponent : (exponent == 0) = false) : (power base exponent).isNaN = true := by
  rw [power, hexponent, if_neg (by simp), if_pos hbase]
  exact hbase

namespace Metric

variable {m : Metric} {a b : Point}

section Formulas

variable (h : ∃ pair ∈ coordinatePairs a b, PairNaN pair)
include h

theorem isNaN_squaresDistance : (squaresDistance a b).isNaN = true := by
  refine isNaN_total_map ?_ h
  rintro ⟨x, y⟩ hpair
  exact isNaN_mul (Or.inl (isNaN_sub hpair))

theorem isNaN_gapsDistance : (gapsDistance a b).isNaN = true := by
  refine isNaN_total_map ?_ h
  rintro ⟨x, y⟩ hpair
  exact isNaN_gap hpair

theorem isNaN_powersDistance {p : Float} (hp : (p == 0) = false) (hreciprocal : (1 / p == 0) = false) :
    (powersDistance p a b).isNaN = true := by
  refine isNaN_power (isNaN_total_map ?_ h) hreciprocal
  rintro ⟨x, y⟩ hpair
  exact isNaN_power (isNaN_gap hpair) hp

theorem isNaN_canberraDistance : (canberraDistance a b).isNaN = true := by
  refine isNaN_total_map ?_ h
  rintro ⟨x, y⟩ hpair
  have hsize : (x.abs + y.abs).isNaN = true := isNaN_add (hpair.imp isNaN_abs isNaN_abs)
  dsimp only
  rw [beq_eq_false_of_isNaN hsize, if_neg (by simp)]
  exact isNaN_div (Or.inl (isNaN_gap hpair))

theorem isNaN_brayCurtisDistance : (brayCurtisDistance a b).isNaN = true := by
  unfold brayCurtisDistance
  set sums := (coordinatePairs a b).foldl _ _ with hfold
  have hsums : sums.1.isNaN = true ∧ sums.2.isNaN = true := by
    rw [hfold]
    refine foldl_of_mem (P := fun s : Float × Float => s.1.isNaN = true ∧ s.2.isNaN = true) ?_ ?_ h _
    · rintro ⟨gaps, sizes⟩ ⟨x, y⟩ hpair
      exact ⟨isNaN_add (Or.inr (isNaN_gap hpair)), isNaN_add (Or.inr (isNaN_abs (isNaN_add hpair)))⟩
    · rintro ⟨gaps, sizes⟩ ⟨x, y⟩ hs
      exact ⟨isNaN_add (Or.inl hs.1), isNaN_add (Or.inl hs.2)⟩
  dsimp only
  rw [beq_eq_false_of_isNaN hsums.2, if_neg (by simp)]
  exact isNaN_div (Or.inl hsums.1)

theorem isNaN_dot (centreA centreB : Float) : (products centreA centreB a b).dot.isNaN = true := by
  refine foldl_of_mem (P := fun s : Products => s.dot.isNaN = true) ?_ ?_ h _
  · rintro s ⟨x, y⟩ hpair
    exact isNaN_add (Or.inr (isNaN_mul (hpair.imp (fun hx => isNaN_sub (Or.inl hx))
      fun hy => isNaN_sub (Or.inl hy))))
  · rintro s ⟨x, y⟩ hs
    exact isNaN_add (Or.inl hs)

end Formulas

/-- One of the points has length zero, as far as these products tell. -/
def Products.Vanishing (s : Products) : Prop := s.left == 0 ∨ s.right == 0

theorem angularDistance_of_vanishing {s : Products} (hs : s.Vanishing) : angularDistance s = 1 :=
  if_pos ((Bool.or_eq_true _ _).mpr hs)

theorem isNaN_clamp {x : Float} (hx : x.isNaN = true) (low high : Float) :
    (clamp low high x).isNaN = true := by
  rw [clamp, if_neg (not_lt_of_isNaN_or (Or.inl hx)), if_neg (not_lt_of_isNaN_or (Or.inr hx))]
  exact hx

theorem isNaN_angularDistance {s : Products} (hdot : s.dot.isNaN = true) (hs : ¬s.Vanishing) :
    (angularDistance s).isNaN = true := by
  rw [angularDistance, if_neg (mt (Bool.or_eq_true _ _).mp hs)]
  exact isNaN_clamp (isNaN_sub (Or.inr (isNaN_div (Or.inl hdot)))) 0 2

/-- The metrics that take every coordinate into a sum. -/
def CarriesNaN : Metric → Prop
  | .chebyshev => False
  | .haversine => False
  | .minkowski p => p.isInf = false
  | _ => True

/-- The metric is angular and one of the points has no direction, because it has length zero: by
itself, or for a correlation as seen from the mean of its coordinates. -/
def Undirected (m : Metric) (a b : Point) : Prop :=
  match m with
  | .cosine => (products 0 0 a b).Vanishing
  | .correlation => (products (mean (a.map widen)) (mean (b.map widen)) a b).Vanishing
  | _ => False

theorem exponent_ne_zero {p : Float} (h : (minkowski p).validate = .ok ()) : (p == 0) = false := by
  obtain ⟨hnan, hone⟩ := validate_minkowski h
  rw [le_iff_place64 (by decide) hnan] at hone
  rw [Bool.eq_false_iff, ne_eq, beq_zero_iff_place64 hnan]
  intro hzero
  rw [hzero] at hone
  exact absurd hone (by decide)

theorem isNaN_minkowskiDistance {p : Float} (hvalid : (minkowski p).validate = .ok ())
    (hp : p.isInf = false) (h : ∃ pair ∈ coordinatePairs a b, PairNaN pair) :
    (minkowskiDistance p a b).isNaN = true := by
  unfold minkowskiDistance
  split_ifs with hone htwo hinf
  · exact isNaN_gapsDistance h
  · exact isNaN_sqrt (isNaN_squaresDistance h)
  · rw [hp] at hinf
    cases hinf
  · exact isNaN_powersDistance h (exponent_ne_zero hvalid)
      (reciprocal_ne_zero (validate_minkowski hvalid).1 hp)

theorem exists_formula_isNaN (hvalid : m.validate = .ok ()) (hm : m.CarriesNaN)
    (hdirected : ¬m.Undirected a b) (h : ∃ pair ∈ coordinatePairs a b, PairNaN pair) :
    ∃ d, m.formula? a b = some d ∧ d.isNaN = true := by
  cases m with
  | euclidean => exact ⟨_, rfl, isNaN_sqrt (isNaN_squaresDistance h)⟩
  | sqEuclidean => exact ⟨_, rfl, isNaN_squaresDistance h⟩
  | manhattan => exact ⟨_, rfl, isNaN_gapsDistance h⟩
  | chebyshev => exact hm.elim
  | minkowski p => exact ⟨_, rfl, isNaN_minkowskiDistance hvalid hm h⟩
  | cosine => exact ⟨_, rfl, isNaN_angularDistance (isNaN_dot h _ _) hdirected⟩
  | correlation => exact ⟨_, rfl, isNaN_angularDistance (isNaN_dot h _ _) hdirected⟩
  | canberra => exact ⟨_, rfl, isNaN_canberraDistance h⟩
  | brayCurtis => exact ⟨_, rfl, isNaN_brayCurtisDistance h⟩
  | haversine => exact hm.elim

theorem exists_distance_isNaN (hvalid : m.validate = .ok ()) (hm : m.CarriesNaN)
    (hlength : a.length = b.length) (hnan : HasNaN a ∨ HasNaN b) (hdirected : ¬m.Undirected a b) :
    ∃ d, m.distance? a b = some d ∧ d.isNaN = true := by
  obtain ⟨d, hd, hnan⟩ := exists_formula_isNaN hvalid hm hdirected (exists_pairNaN hlength hnan)
  refine ⟨nonnegative d, ?_, ?_⟩
  · rw [distance?, hd, Option.map_some]
  · rw [nonnegative, if_neg (not_le_of_isNaN (Or.inl hnan))]
    exact hnan

/-- A point without direction is at distance one from every other, even from one that has no
coordinates that are numbers. -/
theorem distance?_of_undirected (h : m.Undirected a b) : m.distance? a b = some 1 := by
  have hone : nonnegative 1 = 1 := by decide
  cases m with
  | cosine =>
    rw [distance?, formula?, cosineDistance, angularDistance_of_vanishing h, Option.map_some, hone]
  | correlation =>
    rw [distance?, formula?, correlationDistance, angularDistance_of_vanishing h, Option.map_some,
      hone]
  | _ => exact h.elim

end Metric

/-! ## Answers -/

/-- In every row of the answer, whatever follows a stored point with a coordinate that is not a
number is at no distance that is a number either, unless the metric is angular and one of the two
points compared has no direction. -/
def Neighbors.NaNLast (found : Neighbors) (metric : Metric) (reference queries : Matrix Float32) :
    Prop :=
  ∀ i < queries.rows, ∃ query row, queries.row? i = some query ∧ found.Lists i row ∧
    (∀ c ∈ row, ∃ point, reference.row? c.index = some point ∧
      metric.distance? query point = some c.distance) ∧
    row.Pairwise fun a b => ∀ point, reference.row? a.index = some point → HasNaN point →
      ¬metric.Undirected query point → b.distance.isNaN = true

variable {metric : Metric} {reference queries : Matrix Float32} {query : Point}
  {cs : List Candidate}

/-- The distance of a candidate is that of the point with its index. -/
theorem Measured.distance_eq (h : Measured metric reference query cs) {c : Candidate} (hc : c ∈ cs) :
    ∃ point, reference.row? c.index = some point ∧ metric.distance? query point = some c.distance := by
  obtain ⟨j, hj, rfl⟩ := List.getElem_of_mem hc
  obtain ⟨point, d, hpoint, hd, hentry⟩ := h.entry j (h.length_eq ▸ hj)
  rw [List.getElem?_eq_getElem hj, Option.some.injEq] at hentry
  rw [hentry]
  exact ⟨point, hpoint, hd⟩

theorem Measured.pairwise_isNaN (h : Measured metric reference query cs)
    (hvalid : metric.validate = .ok ()) (hm : metric.CarriesNaN) (href : reference.WellFormed)
    (hquery : query.length = reference.columns) {row : List Candidate}
    (hrow : row.Sublist (Candidate.ranking cs)) :
    row.Pairwise fun a b => ∀ point, reference.row? a.index = some point → HasNaN point →
      ¬metric.Undirected query point → b.distance.isNaN = true := by
  have hordered := h.valid.ranking.pairwise_precedes (Candidate.pairwise_lt_ranking h.valid)
  refine List.Pairwise.imp_of_mem ?_ (hordered.sublist hrow)
  intro a b ha _ hab point hpoint hnan hdirected
  have ha : a ∈ cs := Candidate.mem_ranking.mp (hrow.subset ha)
  have hlength : query.length = point.length := by
    have hi := h.index_lt ha
    rw [Matrix.row?_eq href hi, Option.some.injEq] at hpoint
    rw [hquery, ← hpoint, Matrix.length_rowAt href hi]
  obtain ⟨point', hpoint', hdistance⟩ := h.distance_eq ha
  rw [hpoint, Option.some.injEq] at hpoint'
  obtain ⟨d, hd, hdnan⟩ :=
    Metric.exists_distance_isNaN hvalid hm hlength (Or.inr hnan) hdirected
  rw [← hpoint', hd, Option.some.injEq] at hdistance
  by_contra hb
  rw [Bool.not_eq_true] at hb
  have hafirst := (hab.distance_le hb).1
  rw [← hdistance, hdnan] at hafirst
  cases hafirst

namespace Estimator

/-- In every answer, the points with NaN come last. -/
theorem nanLast_of_collect {k : Nat} {selfMatch : SelfMatch} {withDistances : Bool}
    {found : Neighbors} (hvalid : metric.validate = .ok ())
    (hm : metric.CarriesNaN) (href : reference.WellFormed) (hqueries : queries.WellFormed)
    (hcolumns : queries.columns = reference.columns) (hpos : 1 ≤ k)
    (hk : k ≤ selfMatch.candidateCount reference.rows)
    (h : collect metric reference queries k selfMatch withDistances = .ok found) :
    found.NaNLast metric reference queries := by
  have hmetric : metric.Measures reference.columns := by
    rintro rfl
    exact hm.elim
  obtain ⟨found', hfound', -, hrows⟩ :=
    exists_collect href hqueries hcolumns hmetric hpos hk withDistances
  rw [h, Except.ok.injEq] at hfound'
  subst hfound'
  intro i hi
  obtain ⟨cs, hcs, hlists⟩ := hrows i hi
  have hrow := Candidate.chosen_sublist selfMatch k i cs
  refine ⟨_, _, Matrix.row?_eq hqueries hi, hlists, ?_, ?_⟩
  · intro c hc
    exact hcs.distance_eq (Candidate.mem_ranking.mp (hrow.subset hc))
  · exact hcs.pairwise_isNaN hvalid hm href ((Matrix.length_rowAt hqueries hi).trans hcolumns) hrow

/-- Coordinates that are not numbers give distances that are not numbers, and these come last in
every answer. -/
theorem nan_comes_last {m : Metric} (hvalid : m.validate = .ok ()) (hm : m.CarriesNaN) :
    (∀ a b : Point, a.length = b.length → HasNaN a ∨ HasNaN b →
      (m.Undirected a b → m.distance? a b = some 1) ∧
      (¬m.Undirected a b → ∃ d, m.distance? a b = some d ∧ d.isNaN = true)) ∧
    ∀ (e : Estimator) (s : FittedSet), e.Reachable → e.fitted = some s → e.config.metric = m →
      (∀ {α : Type} [Element α] (x : Matrix α) n withDistances found, x.WellFormed →
        (e.query x n withDistances).result = .ok found → found.NaNLast m s.data x.narrowed) ∧
      ∀ n selfMatch withDistances found,
        (e.queryFitted n selfMatch withDistances).result = .ok found →
          found.NaNLast m s.data s.data := by
  constructor
  · intro a b hlength hnan
    constructor
    · exact Metric.distance?_of_undirected
    · exact Metric.exists_distance_isNaN hvalid hm hlength hnan
  · rintro e s he hs rfl
    have hdata := (he.proper hs).wellFormed
    constructor
    · intro α _ x n withDistances found hx hfound
      rcases query_cases hs x n with ⟨err, -, hrefused⟩ | ⟨hpos, hk, hcolumns, hanswer⟩
      · rw [hrefused] at hfound
        cases hfound
      · rw [hanswer] at hfound
        exact nanLast_of_collect hvalid hm hdata hx.narrowed hcolumns hpos hk hfound
    · intro n selfMatch withDistances found hfound
      rcases queryFitted_cases hs n selfMatch with ⟨err, -, hrefused⟩ | ⟨hpos, hk, hanswer⟩
      · rw [hrefused] at hfound
        cases hfound
      · rw [hanswer] at hfound
        exact nanLast_of_collect hvalid hm hdata hdata rfl hpos hk hfound

/-- Three points on a line, the first of which is not a number. -/
def blurred : Matrix Float32 := ⟨3, 1, #[0 / 0, 1, 0]⟩

/-- An estimator that has stored the blurred points under some metric. -/
def ofBlurred (metric : Metric) : Estimator :=
  ((({} : Estimator).withMetric metric).fit blurred true).1

theorem reachable_ofBlurred (metric : Metric) : (ofBlurred metric).Reachable :=
  .fit (.withMetric .new metric) blurred rfl true

theorem blurred_nan_comes_last :
    (∃ d, Metric.standard.distance? [0 / 0] [1] = some d ∧ d.isNaN = true) ∧
    ∃ found, ((ofBlurred .standard).queryFitted (some 3) .include true).result = .ok found ∧
      found.NaNLast .standard blurred.narrowed blurred.narrowed := by
  have h := nan_comes_last (m := .standard) rfl rfl
  have hfitted : (ofBlurred .standard).fitted = some ⟨blurred.narrowed, .float32⟩ := rfl
  have hcount : 3 ≤ SelfMatch.candidateCount .include 3 := by decide
  obtain ⟨found, hfound, -⟩ := queryFitted_answers (n := some 3) (reachable_ofBlurred .standard)
    hfitted nofun rfl (by decide) hcount true
  exact ⟨(h.1 [0 / 0] [1] rfl (Or.inl (by decide))).2 id, found, hfound,
    (h.2 _ _ (reachable_ofBlurred .standard) hfitted rfl).2 (some 3) .include true found hfound⟩

/-- The last of these points has no direction: under the angular metrics all of them are at distance
one, and the first comes before the second. A largest gap never is NaN, and the great-circle distance
of a point without a position is that of points half a turn apart. -/
theorem some_metrics_hide_nan :
    HasNaN [0 / 0] ∧ (1 : Float).isNaN = false ∧ (0 : Float).isNaN = false ∧
    Metric.cosine.validate = .ok () ∧ Metric.cosine.distance? [0 / 0] [0] = some 1 ∧
    Metric.correlation.validate = .ok () ∧ Metric.correlation.distance? [0 / 0] [0] = some 1 ∧
    Metric.chebyshev.validate = .ok () ∧ Metric.chebyshev.distance? [0 / 0] [0] = some 0 ∧
    (Metric.minkowski (1 / 0)).validate = .ok () ∧
    (Metric.minkowski (1 / 0)).distance? [0 / 0] [0] = some 0 ∧
    Metric.haversine.validate = .ok () ∧ Metric.haversine.distance? [0 / 0, 0] [0, 0]
      = some (Metric.nonnegative (2 * arcSine 1)) ∧
    (ofBlurred .cosine).Reachable ∧
    ((ofBlurred .cosine).queryFitted (some 2) .include true).result.map (·.indices.row? 2)
      = .ok (some [0, 1]) ∧
    ((ofBlurred .cosine).queryFitted (some 2) .include true).result.map
      (·.distances.map (·.row? 2)) = .ok (some (some [1, 1])) := by
  refine ⟨by decide, by decide, by decide, rfl, by decide, rfl, by decide, rfl, by decide, rfl,
    by decide, rfl, rfl, reachable_ofBlurred .cosine, ?_, ?_⟩
  · decide +kernel
  · decide +kernel

end Estimator

end NeighborSearch
