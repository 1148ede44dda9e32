import NeighborSearch.Proofs.Graphs
import NeighborSearch.Proofs.Signs

/-!
# Symmetry

The distance of two points is the same number in both directions. No sum is rearranged for it: the
formulas run through the same partial sums, since a gap, a product and the size of two coordinates
do not depend on which point comes first. So the neighbor graph that keeps the distances of all
stored points from each other is a symmetric matrix.
-/

namespace NeighborSearch

/-! ## Formulas -/

theorem gap_comm (x y : Float) : gap y x = gap x y := (upToSign_sub x y).abs

theorem coordinatePairs_swap (a b : Point) :
    coordinatePairs b a = (coordinatePairs a b).map Prod.swap :=
  (List.zip_swap _ _).symm

theorem sine_neg (x : Float) : sine (-x) = -sine x := by
  unfold sine
  cases hnan : x.isNaN with
  | true =>
    have hneg : (-x).isNaN = true := (isNaN_neg x).trans hnan
    rw [if_neg (not_lt_of_isNaN hneg), if_neg (not_lt_of_isNaN_or (Or.inr hneg)),
      if_neg (not_lt_of_isNaN hnan), if_neg (not_lt_of_isNaN_or (Or.inr hnan))]
  | false =>
    have hneg : (-x).isNaN = false := (isNaN_neg x).trans hnan
    simp only [lt_iff_place64 hneg isNaN_zero, lt_iff_place64 isNaN_zero hneg,
      lt_iff_place64 hnan isNaN_zero, lt_iff_place64 isNaN_zero hnan, place64_zero, place64_neg]
    rcases lt_trichotomy (place64 x) 0 with hlow | hzero | hhigh
    · rw [if_neg (by omega), if_pos (by omega), if_pos hlow, neg_neg_float]
    · rw [if_neg (by omega), if_neg (by omega), if_neg (by omega), if_neg (by omega)]
    · rw [if_pos (by omega), if_neg (by omega), if_pos hhigh, neg_neg_float]

theorem UpToSign.sine {x y : Float} (h : UpToSign x y) :
    UpToSign (NeighborSearch.sine x) (NeighborSearch.sine y) := by
  rcases h with rfl | rfl
  · exact Or.inl (sine_neg x)
  · exact Or.inr rfl

namespace Metric

section Pairs

variable {β : Type}

theorem map_coordinatePairs_comm {f : Float × Float → β} (hf : ∀ x y, f (y, x) = f (x, y))
    (a b : Point) : (coordinatePairs b a).map f = (coordinatePairs a b).map f := by
  rw [coordinatePairs_swap, List.map_map]
  exact List.map_congr_left fun (x, y) _ => hf x y

/-- A step that treats both coordinates alike gives one result for points in either order. -/
theorem foldl_coordinatePairs_comm {f : β → Float × Float → β}
    (hf : ∀ s x y, f s (y, x) = f s (x, y)) (s : β) (a b : Point) :
    (coordinatePairs b a).foldl f s = (coordinatePairs a b).foldl f s := by
  rw [coordinatePairs_swap, List.foldl_map]
  congr 1
  funext s (x, y)
  exact hf s x y

end Pairs

theorem squaresDistance_comm (a b : Point) : squaresDistance b a = squaresDistance a b :=
  congrArg total (map_coordinatePairs_comm (fun x y => (upToSign_sub x y).square) a b)

theorem gapsDistance_comm (a b : Point) : gapsDistance b a = gapsDistance a b :=
  congrArg total (map_coordinatePairs_comm gap_comm a b)

theorem largestGap_comm (a b : Point) : largestGap b a = largestGap a b := by
  refine foldl_coordinatePairs_comm ?_ 0 a b
  intro largest x y
  simp only [gap_comm x y]

theorem powersDistance_comm (p : Float) (a b : Point) :
    powersDistance p b a = powersDistance p a b := by
  unfold powersDistance
  rw [map_coordinatePairs_comm ?_ a b]
  intro x y
  simp only [gap_comm x y]

theorem minkowskiDistance_comm (p : Float) (a b : Point) :
    minkowskiDistance p b a = minkowskiDistance p a b := by
  unfold minkowskiDistance
  rw [gapsDistance_comm, squaresDistance_comm, largestGap_comm, powersDistance_comm]

/-- The same products with the points exchanged. -/
def Products.swap (s : Products) : Products := ⟨s.dot, s.right, s.left⟩

theorem products_swap (centreA centreB : Float) (a b : Point) :
    products centreB centreA b a = (products centreA centreB a b).swap := by
  unfold products
  rw [coordinatePairs_swap, List.foldl_map]
  change List.foldl _ (Products.swap ⟨0, 0, 0⟩) _ = _
  refine List.foldl_hom Products.swap ?_
  rintro s ⟨x, y⟩
  simp only [Products.swap, Prod.swap, mul_comm_float (y - centreB)]

/-- The angle between two points is the same from either side. -/
theorem angularDistance_swap (s : Products) : angularDistance s.swap = angularDistance s := by
  unfold angularDistance Products.swap
  rw [Bool.or_comm, mul_comm_float s.right.sqrt]

theorem cosineDistance_comm (a b : Point) : cosineDistance b a = cosineDistance a b := by
  rw [cosineDistance, products_swap, angularDistance_swap, cosineDistance]

theorem correlationDistance_comm (a b : Point) :
    correlationDistance b a = correlationDistance a b := by
  rw [correlationDistance, products_swap, angularDistance_swap, correlationDistance]

theorem canberraDistance_comm (a b : Point) : canberraDistance b a = canberraDistance a b := by
  refine congrArg total (map_coordinatePairs_comm ?_ a b)
  intro x y
  simp only [gap_comm x y, add_comm_float y.abs]

theorem brayCurtisDistance_comm (a b : Point) : brayCurtisDistance b a = brayCurtisDistance a b := by
  unfold brayCurtisDistance
  rw [foldl_coordinatePairs_comm ?_ _ a b]
  rintro ⟨gaps, sizes⟩ x y
  simp only [gap_comm x y, add_comm_float y x]

/-- The way around the globe is equally long in both directions. -/
theorem greatCircle_comm (latA lonA latB lonB : Float) :
    greatCircle latB lonB latA lonA = greatCircle latA lonA latB lonB := by
  have hlat := ((upToSign_sub latB latA).mul_right 0.5).sine.square
  have hlon := ((upToSign_sub lonB lonA).mul_right 0.5).sine.mul_mul
    (NeighborSearch.cosine latA * NeighborSearch.cosine latB)
  unfold greatCircle
  rw [mul_comm_float (NeighborSearch.cosine latB)]
  simp only [hlat, hlon]

theorem greatCircleDistance?_comm (a b : Point) :
    greatCircleDistance? b a = greatCircleDistance? a b := by
  match a, b with
  | _ :: _ :: _, _ :: _ :: _ => exact congrArg some (greatCircle_comm _ _ _ _)
  | [], [] | [], [_] | [], _ :: _ :: _ => rfl
  | [_], [] | [_], [_] | [_], _ :: _ :: _ => rfl
  | _ :: _ :: _, [] | _ :: _ :: _, [_] => rfl

/-- Every formula gives the same number for points in either order. -/
theorem formula?_comm (m : Metric) (a b : Point) : m.formula? b a = m.formula? a b := by
  cases m with
  | euclidean => exact congrArg (fun d => some (Float.sqrt d)) (squaresDistance_comm a b)
  | sqEuclidean => exact congrArg some (squaresDistance_comm a b)
  | manhattan => exact congrArg some (gapsDistance_comm a b)
  | chebyshev => exact congrArg some (largestGap_comm a b)
  | minkowski p => exact congrArg some (minkowskiDistance_comm p a b)
  | cosine => exact congrArg some (cosineDistance_comm a b)
  | correlation => exact congrArg some (correlationDistance_comm a b)
  | canberra => exact congrArg some (canberraDistance_comm a b)
  | brayCurtis => exact congrArg some (brayCurtisDistance_comm a b)
  | haversine => exact greatCircleDistance?_comm a b

/-- Every metric gives the same distance for points in either order. -/
theorem distance?_comm (m : Metric) (a b : Point) : m.distance? b a = m.distance? a b :=
  congrArg (Option.map nonnegative) (m.formula?_comm a b)

end Metric

/-! ## The graph of all distances -/

/-- Exchanging row and column leaves every element as it is. -/
structure Matrix.Symmetric {α : Type} (x : Matrix α) : Prop where
  square : x.rows = x.columns
  mirrored : ∀ i < x.rows, ∀ j < x.rows, ∃ v, x.get? i j = some v ∧ x.get? j i = some v

/-- The dense form has at every listed place what the graph stores for the neighbor. -/
theorem Listing.exists_expands {samples k : Nat} {selfMatch : SelfMatch}
    {table : List (List Candidate)} (h : Listing samples k selfMatch table) (mode : GraphMode) :
    ∃ dense, (SparseMatrix.ofTable samples k (entryRows mode table)).Expands dense ∧
      dense.shape = (table.length, samples) ∧ ∀ i row, table[i]? = some row → ∀ c ∈ row,
        dense.get? i c.index = some (0 + mode.weight (narrow c.distance)) := by
  have hrows := h.length_of_mem_entryRows mode
  obtain ⟨dense, hexpands, hshape, -, hdense⟩ :=
    SparseMatrix.exists_expands (SparseMatrix.readable_ofTable hrows (h.lt_of_mem_entryRows mode))
  have hcount : (entryRows mode table).length = table.length := List.length_map _
  refine ⟨dense, hexpands, hshape.trans (congrArg (·, samples) hcount), ?_⟩
  intro i row hi c hc
  have hmem : row ∈ table := List.mem_of_getElem? hi
  have hlt : i < table.length := (List.getElem?_eq_some_iff.mp hi).1
  have hstored : (SparseMatrix.ofTable samples k (entryRows mode table)).row? i
      = some (row.map (Candidate.entry mode)) := by
    refine SparseMatrix.row?_ofTable hrows ?_
    rw [entryRows, List.getElem?_map, hi, Option.map_some]
  have hplaces : ((row.map (Candidate.entry mode)).map Prod.fst).Nodup := by
    rw [List.map_map]
    exact h.distinct row hmem
  have hentry : (c.index, mode.weight (narrow c.distance)) ∈ row.map (Candidate.entry mode) :=
    List.mem_map.mpr ⟨c, hc, rfl⟩
  rw [hdense i (hlt.trans_eq hcount.symm) _ (h.inRange row hmem c hc),
    SparseMatrix.entries_eq hstored, SparseMatrix.valuesAt_of_mem hplaces hentry]
  rfl

/-- If all stored points are listed, each of them is, at its distance. -/
theorem Measured.mem_take_ranking {metric : Metric} {reference : Matrix Float32} {query : Point}
    {cs : List Candidate} (h : Measured metric reference query cs) (href : reference.WellFormed)
    {j : Nat} (hj : j < reference.rows) :
    ∃ d, metric.distance? query (reference.rowAt j) = some d ∧
      ⟨d, j⟩ ∈ (Candidate.ranking cs).take reference.rows := by
  obtain ⟨point, d, hpoint, hd, hc⟩ := h.entry j hj
  rw [Matrix.row?_eq href hj, Option.some.injEq] at hpoint
  refine ⟨d, hpoint ▸ hd, ?_⟩
  rw [List.take_of_length_le (by rw [Candidate.length_ranking, h.length_eq]),
    Candidate.mem_ranking]
  exact List.mem_of_getElem? hc

/-- A point that does not count itself has one candidate less than there are points. -/
theorem SelfMatch.eq_include_of_le {choice : SelfMatch} {samples : Nat} (hsome : 0 < samples)
    (h : samples ≤ choice.candidateCount samples) : choice = .include := by
  match choice, h with
  | .include, _ => rfl
  | .exclude, h =>
    have h : samples ≤ samples - 1 := h
    omega

namespace Estimator

variable {e : Estimator} {s : FittedSet} {n : Option Nat} {selfMatch : SelfMatch}

/-- If a query finds all stored points for each of them, the dense form of their graph holds the
distance of every two. -/
theorem exists_complete_graph (he : e.Reachable) (hs : e.fitted = some s)
    (hn : n.getD e.config.neighbors = s.data.rows) {withDistances : Bool} {found : Neighbors}
    (hfound : (e.queryFitted n selfMatch withDistances).result = .ok found) :
    ∃ g dense, (e.index.graphFitted n .distance selfMatch).result = .ok g ∧
      g.Expands dense ∧ dense.shape = (s.data.rows, s.data.rows) ∧
      ∀ i < s.data.rows, ∀ j < s.data.rows, ∃ d,
        e.config.metric.distance? (s.data.rowAt i) (s.data.rowAt j) = some d ∧
        dense.get? i j = some (0 + narrow d) := by
  have hproper := he.proper hs
  have hdata := hproper.wellFormed
  have hsome := hproper.rows_pos
  rcases queryFitted_cases hs n selfMatch with ⟨err, -, hrefused⟩ | ⟨hpos, hle, hanswer⟩
  · cases (hrefused withDistances).symm.trans hfound
  rw [hn] at hpos hle hanswer
  obtain rfl := SelfMatch.eq_include_of_le hsome hle
  cases hsearch : search? e.config.metric s.data s.data s.data.rows .include with
  | none =>
    rw [hanswer, collect_eq_error hsearch] at hfound
    cases hfound
  | some table =>
    have hmeasures : e.config.metric.Measures s.data.columns := by
      by_contra hnone
      cases (search?_eq_none hdata hdata hnone hsome hsome _ _).symm.trans hsearch
    obtain ⟨table', hsearch', hlength, hrows⟩ :=
      exists_search hdata hdata rfl hmeasures s.data.rows .include
    cases hsearch.symm.trans hsearch'
    have hlisting := listing_of_search? hpos hle hsearch
    obtain ⟨dense, hexpands, hshape, hvalues⟩ := hlisting.exists_expands .distance
    refine ⟨_, dense, ?_, hexpands, hlength ▸ hshape, ?_⟩
    · rw [graphFitted_result, sampleCount_eq hs, ok_bind, hanswer,
        collect_eq hsearch hlisting.length, ok_bind]
      exact toGraph_ofTable hlisting .distance
    · intro i hi j hj
      obtain ⟨cs, hcs, hrow⟩ := hrows i hi
      obtain ⟨d, hd, hmem⟩ := hcs.mem_take_ranking hdata hj
      exact ⟨d, hd, hvalues i _ hrow _ hmem⟩

/-- The dense graph of all distances is symmetric. -/
theorem exists_symmetric_graph (he : e.Reachable) (hs : e.fitted = some s)
    (hn : n.getD e.config.neighbors = s.data.rows) {withDistances : Bool} {found : Neighbors}
    (hfound : (e.queryFitted n selfMatch withDistances).result = .ok found) :
    ∃ g dense, (e.index.graphFitted n .distance selfMatch).result = .ok g ∧
      g.Expands dense ∧ dense.rows = s.data.rows ∧ dense.Symmetric := by
  obtain ⟨g, dense, hg, hexpands, hshape, hentry⟩ := exists_complete_graph he hs hn hfound
  obtain ⟨hrows, hcolumns⟩ := Prod.ext_iff.mp hshape
  refine ⟨g, dense, hg, hexpands, hrows, hrows.trans hcolumns.symm, ?_⟩
  rw [show dense.rows = s.data.rows from hrows]
  intro i hi j hj
  obtain ⟨d, hd, hij⟩ := hentry i hi j hj
  obtain ⟨d', hd', hji⟩ := hentry j hj i hi
  rw [Metric.distance?_comm, hd, Option.some.injEq] at hd'
  rw [← hd'] at hji
  exact ⟨_, hij, hji⟩

/-- Two points that can be measured have one distance in both directions, under every metric. So the
dense form of the graph that lists all stored points for each of them, with their distances, is a
symmetric matrix. -/
theorem distances_symmetric :
    (∀ (m : Metric) (a b : Point), a.length = b.length → m.Measures a.length →
      ∃ d, m.distance? a b = some d ∧ m.distance? b a = some d) ∧
    ∀ {e : Estimator} {s : FittedSet} {n : Option Nat} {selfMatch : SelfMatch}
      {withDistances : Bool} {found : Neighbors}, e.Reachable → e.fitted = some s →
      n.getD e.config.neighbors = s.data.rows →
      (e.queryFitted n selfMatch withDistances).result = .ok found →
      ∃ g dense, (e.index.graphFitted n .distance selfMatch).result = .ok g ∧
        g.Expands dense ∧ dense.rows = s.data.rows ∧ dense.Symmetric := by
  constructor
  · intro m a b hlength hmeasures
    obtain ⟨d, hd⟩ := hmeasures.exists_distance rfl hlength.symm
    exact ⟨d, hd, (m.distance?_comm a b).trans hd⟩
  · intro e s n selfMatch withDistances found he hs hn hfound
    exact exists_symmetric_graph he hs hn hfound

theorem overlapping_distances_symmetric :
    (∃ d, Metric.distance? .haversine [1, 2] [3, 5] = some d ∧
      Metric.distance? .haversine [3, 5] [1, 2] = some d) ∧
    ∃ g dense, (ofOverlapping.index.graphFitted (some 4) .distance .include).result = .ok g ∧
      g.toDense? = some dense ∧ dense.rows = 4 ∧ dense.Symmetric := by
  obtain ⟨hpoints, hgraphs⟩ := distances_symmetric
  constructor
  · exact hpoints .haversine [1, 2] [3, 5] (by simp only [List.length_cons]) fun _ => le_rfl
  · have hcount : 4 ≤ SelfMatch.candidateCount .include 4 := le_rfl
    obtain ⟨found, hfound, -⟩ := queryFitted_answers (n := some 4) (k := 4)
      reachable_ofOverlapping fitted_ofOverlapping fits_ofOverlapping.measures rfl (by decide)
      hcount false
    obtain ⟨g, dense, hg, hexpands, hrows, hsymmetric⟩ :=
      hgraphs (n := some 4) reachable_ofOverlapping fitted_ofOverlapping rfl hfound
    have hrows : dense.rows = 4 := hrows
    have hfits : FitsArray (dense.rows * dense.columns) := by
      rw [← hsymmetric.square, hrows]
      decide
    exact ⟨g, dense, hg, hexpands.toDense hfits, hrows, hsymmetric⟩

end Estimator

end NeighborSearch
