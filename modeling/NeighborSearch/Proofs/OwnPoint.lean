import NeighborSearch.Proofs.SelfDistance
import NeighborSearch.Proofs.Shards

/-!
# A point among its own neighbors

Where every stored point is at no distance from itself, it is as near to itself as any other point,
so what is reported first for it is the distance zero. If it asks for other points and misses the
cut, all candidates up to the cut are at distance zero as well. It makes no difference then which of
them is dropped: the distances that are left are the smallest ones to the other points.
-/

namespace NeighborSearch

/-- `row` lists in order `k` of the distances `all`, and none of the others is smaller. NaN is the
largest distance. -/
structure Smallest (k : Nat) (all row : List Float32) : Prop where
  length_eq : row.length = k
  ascending : Ascending row
  first : ∃ rest, (row ++ rest).Perm all ∧
    ∀ d ∈ row, ∀ d' ∈ rest, d'.isNaN = true ∨ d.isNaN = false ∧ d ≤ d'

namespace Candidate

variable {cs : List Candidate} {own c : Candidate} {i k n : Nat}

/-- The first candidates in the ranking have the smallest distances. -/
theorem smallest_take_ranking (h : Valid cs) (hk : k ≤ cs.length) :
    Smallest k (cs.map fun c => narrow c.distance)
      (((ranking cs).take k).map fun c => narrow c.distance) := by
  have hordered := h.ranking.pairwise_precedes (pairwise_lt_ranking h)
  refine ⟨?_, ?_, ((ranking cs).drop k).map fun c => narrow c.distance, ?_, ?_⟩
  · rw [List.length_map, length_take_ranking hk]
  · exact ascending_narrow (h.ranking.sublist (List.take_sublist k _)).unsigned
      (hordered.sublist (List.take_sublist k _))
  · rw [← List.map_append, List.take_append_drop]
    exact (ranking_perm cs).map _
  · rw [← List.take_append_drop k (ranking cs)] at hordered
    intro d hd d' hd'
    obtain ⟨a, ha, rfl⟩ := List.mem_map.mp hd
    obtain ⟨b, hb, rfl⟩ := List.mem_map.mp hd'
    exact ((List.pairwise_append.mp hordered).2.2 a ha b hb).narrow_le

/-! ## Distance zero -/

theorem distanceKey_zero_le {d : Float} (h : Unsigned d) : distanceKey 0 ≤ distanceKey d := by
  have hzero : distanceKey 0 = toLex (false, 0) := by decide
  rw [hzero]
  cases hnan : d.isNaN with
  | true =>
    rw [distanceKey_of_isNaN hnan, Prod.Lex.toLex_le_toLex]
    exact Or.inl Bool.false_lt_true
  | false =>
    rw [distanceKey_of_unsigned h hnan, Prod.Lex.toLex_le_toLex]
    exact Or.inr ⟨rfl, h.place_nonneg hnan⟩

/-- Nothing comes before a candidate at distance zero except at the same distance. -/
theorem distance_eq_zero_of_le (hc : Unsigned c.distance) (hown : own.distance = 0) (h : c ≤ own) :
    c.distance = 0 := by
  rw [← hown]
  refine distance_eq_of_le h ?_
  rw [hown]
  exact distanceKey_zero_le hc

/-- If a candidate at distance zero misses a cut, all that make it are at distance zero. -/
theorem distance_eq_zero_of_mem_take (h : Valid cs) (hmem : own ∈ cs) (hown : own.distance = 0)
    (hout : ¬RanksWithin cs own.index n) : ∀ c ∈ (ranking cs).take n, c.distance = 0 := by
  have hrest : own ∈ (ranking cs).drop n := by
    have hin : own ∈ (ranking cs).take n ++ (ranking cs).drop n := by
      rw [List.take_append_drop]
      exact mem_ranking.mpr hmem
    exact (List.mem_append.mp hin).resolve_left fun hin => hout ⟨own, hin, rfl⟩
  have hordered := pairwise_ranking cs
  rw [← List.take_append_drop n (ranking cs)] at hordered
  intro c hc
  exact distance_eq_zero_of_le (h.ranking.unsigned c (List.mem_of_mem_take hc)) hown
    ((List.pairwise_append.mp hordered).2.2 c hc own hrest)

/-- If the point is at distance zero from itself, so is the first candidate. -/
theorem head_ranking_distance (h : Valid cs) (hmem : own ∈ cs) (hown : own.distance = 0)
    (hc : (ranking cs)[0]? = some c) : c.distance = 0 := by
  obtain ⟨rest, hranking⟩ : ∃ rest, ranking cs = c :: rest := by
    cases hranking : ranking cs with
    | nil => simp [hranking] at hc
    | cons d rest =>
      rw [hranking, List.getElem?_cons_zero, Option.some.injEq] at hc
      exact ⟨rest, by rw [hc]⟩
  have hordered := pairwise_ranking cs
  have hranked := mem_ranking.mpr hmem
  rw [hranking] at hordered hranked
  refine distance_eq_zero_of_le (h.unsigned c (mem_ranking.mp (List.mem_of_getElem? hc))) hown ?_
  rcases List.mem_cons.mp hranked with rfl | hrest
  · exact le_rfl
  · exact List.rel_of_pairwise_cons hordered hrest

/-- Whichever candidate is left out for a point at no distance from itself, the distances are those
of the leading candidates among all others. -/
theorem map_distance_leaveOut (h : Valid cs) (hk : k < cs.length) (hmem : own ∈ cs)
    (hown : own.distance = 0) :
    (leaveOut own.index ((ranking cs).take (k + 1))).map distance
      = ((ranking (cs.filter (·.index ≠ own.index))).take k).map distance := by
  by_cases hin : RanksWithin cs own.index (k + 1)
  · rw [leaveOut_of_ranksWithin h hk hin]
  · -- The candidate missed the cut, so all that made it are at distance zero, and it does not matter
    -- which `k` of them are left.
    have hzero := distance_eq_zero_of_mem_take h hmem hown hin
    have hkept : ((ranking cs).take (k + 1)).filter (·.index ≠ own.index)
        = (ranking cs).take (k + 1) := by
      refine List.filter_eq_self.mpr ?_
      intro c hc
      rw [decide_eq_true_iff]
      exact fun hindex => hin ⟨c, hc, hindex⟩
    have hothers : (ranking (cs.filter (·.index ≠ own.index))).take k
        = ((ranking cs).take (k + 1)).take k := by
      have hlength : ((ranking cs).take (k + 1)).length = k + 1 := length_take_ranking hk
      rw [ranking_filter, ← List.take_append_drop (k + 1) (ranking cs), List.filter_append, hkept,
        List.take_append_drop, List.take_append_of_le_length (by omega)]
    have hall : ∀ row : List Candidate, row.Sublist ((ranking cs).take (k + 1)) → row.length = k →
        row.map distance = List.replicate k 0 := by
      intro row hsub hlength
      rw [List.eq_replicate_iff, List.length_map]
      refine ⟨hlength, ?_⟩
      intro d hd
      obtain ⟨c, hc, rfl⟩ := List.mem_map.mp hd
      exact hzero c (hsub.subset hc)
    rw [hothers, hall _ (leaveOut_sublist _ _) ?_, hall _ (List.take_sublist k _) ?_]
    · rw [List.length_take, length_take_ranking hk]
      omega
    · rw [length_leaveOut, length_take_ranking hk]
      omega

/-- Without the point itself, the distances chosen are the smallest ones of the others. -/
theorem smallest_chosen_exclude (h : Valid cs) (hk : k < cs.length) (hown : ⟨0, i⟩ ∈ cs) :
    Smallest k ((cs.filter (·.index ≠ i)).map fun c => narrow c.distance)
      ((chosen .exclude k i cs).map fun c => narrow c.distance) := by
  have hdistances : (chosen .exclude k i cs).map distance
      = ((ranking (cs.filter (·.index ≠ i))).take k).map distance :=
    map_distance_leaveOut h hk hown rfl
  rw [map_narrow_eq hdistances]
  refine smallest_take_ranking (h.sublist List.filter_sublist) ?_
  rw [length_filter_index h ⟨_, hown, rfl⟩]
  omega

end Candidate

/-! ## Reported distances -/

/-- All elements of the matrix are finite. -/
def Matrix.AllFinite (x : Matrix Float32) : Prop := ∀ v ∈ x.data, v.isFinite = true

instance (x : Matrix Float32) : Decidable x.AllFinite :=
  inferInstanceAs (Decidable (∀ v ∈ x.data, v.isFinite = true))

section Stored

variable {metric : Metric} {reference : Matrix Float32} {i : Nat} {cs : List Candidate}

/-- A row with finite coordinates is at no distance from itself. -/
theorem distance?_rowAt_self (href : reference.WellFormed) (hpos : 0 < reference.columns)
    (hfinite : reference.AllFinite) (hmetric : metric.Fits reference.columns)
    (hreflexive : metric.Reflexive) (hi : i < reference.rows) :
    metric.distance? (reference.rowAt i) (reference.rowAt i) = some 0 := by
  have hlength := Matrix.length_rowAt href hi
  refine Metric.distance?_self hmetric.parameter hreflexive ?_ ?_ ?_
  · intro hm
    rw [hlength]
    exact hmetric.measures hm
  · rw [← List.length_pos_iff, hlength]
    exact hpos
  · intro v hv
    exact hfinite v ((Matrix.mem_data_iff href).mpr ⟨i, hi, hv⟩)

/-- So every row is among its own candidates at distance zero. -/
theorem Measured.mem_own (href : reference.WellFormed)
    (hcs : Measured metric reference (reference.rowAt i) cs) (hi : i < reference.rows)
    (hself : metric.distance? (reference.rowAt i) (reference.rowAt i) = some 0) : ⟨0, i⟩ ∈ cs := by
  obtain ⟨point, d, hpoint, hd, hc⟩ := hcs.entry i hi
  rw [Matrix.row?_eq href hi, Option.some.injEq] at hpoint
  rw [← hpoint, hself, Option.some.injEq] at hd
  rw [← hd] at hc
  exact List.mem_of_getElem? hc

end Stored

/-- The distances reported for row `i` are the `k` smallest to the other rows. -/
def Neighbors.SmallestOthers (found : Neighbors) (metric : Metric) (reference : Matrix Float32)
    (k i : Nat) : Prop :=
  ∃ point cs ds row, reference.row? i = some point ∧ Measured metric reference point cs ∧
    found.distances = some ds ∧ ds.row? i = some row ∧
    Smallest k ((cs.filter (·.index ≠ i)).map fun c => narrow c.distance) row

namespace Estimator

variable {e : Estimator} {s : FittedSet}

section AtNoDistance

variable {n : Option Nat} {k : Nat} (he : e.Reachable) (hs : e.fitted = some s)
  (hmetric : e.config.metric.Measures s.data.columns)
  (hself : ∀ i < s.data.rows,
    e.config.metric.distance? (s.data.rowAt i) (s.data.rowAt i) = some 0)
  (hn : n.getD e.config.neighbors = k) (hpos : 1 ≤ k)
include he hs hmetric hself hn hpos

/-- Every stored point finds a neighbor at distance zero. -/
theorem queryFitted_first_zero (hk : k ≤ s.data.rows) :
    ∃ found ds, (e.queryFitted n .include true).result = .ok found ∧
      found.distances = some ds ∧ ∀ i < s.data.rows, ds.get? i 0 = some 0 := by
  have hdata := (he.proper hs).wellFormed
  have hcount : k ≤ SelfMatch.candidateCount .include s.data.rows := hk
  obtain ⟨found, hfound, hshaped, hrows⟩ :=
    queryFitted_answers he hs hmetric hn hpos hcount true
  obtain ⟨ds, hds⟩ := Option.isSome_iff_exists.mp hshaped.asked
  refine ⟨found, ds, hfound, hds, ?_⟩
  intro i hi
  obtain ⟨cs, hcs, hrow⟩ := hrows i hi
  have hown := hcs.mem_own hdata hi (hself i hi)
  obtain ⟨c, hc⟩ : ∃ c, (Candidate.ranking cs)[0]? = some c :=
    ⟨_, List.getElem?_eq_getElem (List.length_pos_of_mem (Candidate.mem_ranking.mpr hown))⟩
  obtain ⟨ds', hds', hget⟩ :=
    hrow.exists_distance hshaped hi hpos ((List.getElem?_take_of_lt hpos).trans hc)
  rw [hds, Option.some.injEq] at hds'
  rw [hds', hget, Candidate.head_ranking_distance hcs.valid hown rfl hc]
  decide

/-- Every stored point finds the nearest others, even if a duplicate was left out in its place. -/
theorem queryFitted_smallest_others (hk : k ≤ s.data.rows - 1) :
    ∃ found, (e.queryFitted n .exclude true).result = .ok found ∧
      ∀ i < s.data.rows, found.SmallestOthers e.config.metric s.data k i := by
  have hdata := (he.proper hs).wellFormed
  have hcount : k ≤ SelfMatch.candidateCount .exclude s.data.rows := hk
  obtain ⟨found, hfound, hshaped, hrows⟩ :=
    queryFitted_answers he hs hmetric hn hpos hcount true
  obtain ⟨ds, hds⟩ := Option.isSome_iff_exists.mp hshaped.asked
  refine ⟨found, hfound, ?_⟩
  intro i hi
  obtain ⟨cs, hcs, hrow⟩ := hrows i hi
  refine ⟨_, cs, ds, _, Matrix.row?_eq hdata hi, hcs, hds, hrow.distances ds hds, ?_⟩
  refine Candidate.smallest_chosen_exclude hcs.valid ?_ (hcs.mem_own hdata hi (hself i hi))
  rw [hcs.length_eq]
  omega

end AtNoDistance

/-- Among stored points with finite coordinates, under a metric that starts from coordinate gaps:
every point is at distance zero from itself, so this is the first distance reported for it, and the
distances reported for other points are the smallest ones to these, even if the point itself missed
the cut. -/
theorem own_point_nearest (he : e.Reachable) (hs : e.fitted = some s)
    (hmetric : e.config.metric.Fits s.data.columns) (hreflexive : e.config.metric.Reflexive)
    (hfinite : s.data.AllFinite) :
    (∀ i < s.data.rows, ∃ point, s.data.row? i = some point ∧
      e.config.metric.distance? point point = some 0) ∧
    ∀ (n : Option Nat) (k : Nat), n.getD e.config.neighbors = k → 1 ≤ k →
      (k ≤ s.data.rows → ∃ found ds, (e.queryFitted n .include true).result = .ok found ∧
        found.distances = some ds ∧ ∀ i < s.data.rows, ds.get? i 0 = some 0) ∧
      (k ≤ s.data.rows - 1 → ∃ found, (e.queryFitted n .exclude true).result = .ok found ∧
        ∀ i < s.data.rows, found.SmallestOthers e.config.metric s.data k i) := by
  have hproper := he.proper hs
  have hdata := hproper.wellFormed
  have hself : ∀ i < s.data.rows,
      e.config.metric.distance? (s.data.rowAt i) (s.data.rowAt i) = some 0 := fun i hi =>
    distance?_rowAt_self hdata hproper.columns_pos hfinite hmetric hreflexive hi
  refine ⟨fun i hi => ⟨_, Matrix.row?_eq hdata hi, hself i hi⟩, ?_⟩
  intro n k hn hpos
  constructor
  · intro hk
    exact queryFitted_first_zero he hs hmetric.measures hself hn hpos hk
  · intro hk
    exact queryFitted_smallest_others he hs hmetric.measures hself hn hpos hk

theorem overlapping_own_point_nearest :
    (∃ found ds, (ofOverlapping.queryFitted (some 4) .include true).result = .ok found ∧
      found.distances = some ds ∧ ∀ i < 4, ds.get? i 0 = some 0) ∧
    ∃ found, (ofOverlapping.queryFitted (some 1) .exclude true).result = .ok found ∧
      ∀ i < 4, found.SmallestOthers (.minkowski 2) overlapping.narrowed 1 i := by
  have hfinite : overlapping.narrowed.AllFinite := by decide +kernel
  have h := own_point_nearest reachable_ofOverlapping fitted_ofOverlapping fits_ofOverlapping
    trivial hfinite
  exact ⟨(h.2 (some 4) 4 rfl (by decide)).1 (by decide),
    (h.2 (some 1) 1 rfl (by decide)).2 (by decide)⟩

end Estimator

end NeighborSearch
