import NeighborSearch.Proofs.SelfExclusion

/-!
# Lists of different lengths

Asking for more neighbors continues the list of a point. Where the point itself is to be left out,
this holds as long as it is dropped from both lists or from neither. Otherwise the longer list has
one candidate in front that the shorter one has lost.
-/

namespace NeighborSearch

/-- Row `i` of one answer, with `front` before it, begins row `i` of another answer. -/
structure Neighbors.Nests (short long : Neighbors) (i : Nat) (front : List Candidate) : Prop where
  indices : ∃ js js', short.indices.row? i = some js ∧ long.indices.row? i = some js' ∧
    front.map Candidate.index ++ js <+: js'
  distances : ∃ ds ds' xs xs', short.distances = some ds ∧ long.distances = some ds' ∧
    ds.row? i = some xs ∧ ds'.row? i = some xs' ∧
    front.map (fun c => narrow c.distance) ++ xs <+: xs'

section Nests

variable {short long : Neighbors} {i : Nat} {front row row' : List Candidate}

theorem Neighbors.Lists.nests {n n' k k' : Nat} (hshort : short.Lists i row)
    (hlong : long.Lists i row') (hshaped : short.Shaped n k true) (hshaped' : long.Shaped n' k' true)
    (hrows : front ++ row <+: row') : short.Nests long i front := by
  obtain ⟨ds, hds⟩ := Option.isSome_iff_exists.mp hshaped.asked
  obtain ⟨ds', hds'⟩ := Option.isSome_iff_exists.mp hshaped'.asked
  have hindices := hrows.map Candidate.index
  have hdistances := hrows.map fun c => narrow c.distance
  rw [List.map_append] at hindices hdistances
  exact ⟨⟨_, _, hshort.indices, hlong.indices, hindices⟩,
    ⟨ds, ds', _, _, hds, hds', hshort.distances ds hds, hlong.distances ds' hds', hdistances⟩⟩

/-- The indices of nested answers begin alike. -/
theorem Neighbors.Nests.map_index (h : short.Nests long i front) (hshort : short.Lists i row)
    (hlong : long.Lists i row') :
    front.map Candidate.index ++ row.map Candidate.index <+: row'.map Candidate.index := by
  obtain ⟨js, js', hjs, hjs', hnests⟩ := h.indices
  rw [hshort.indices, Option.some.injEq] at hjs
  rw [hlong.indices, Option.some.injEq] at hjs'
  rwa [hjs, hjs']

variable {cs : List Candidate} {top : Candidate} {rest : List Candidate} {n n' k k' : Nat}

/-- Lists of other points nest exactly if the point itself was dropped from both or from neither. -/
theorem Neighbors.Lists.nests_iff (hvalid : Candidate.Valid cs)
    (hranking : Candidate.ranking cs = top :: rest) (hpos : 1 ≤ k) (hk : k < k')
    (hk' : k' < cs.length) (hshort : short.Lists i (Candidate.chosen .exclude k i cs))
    (hlong : long.Lists i (Candidate.chosen .exclude k' i cs)) (hshaped : short.Shaped n k true)
    (hshaped' : long.Shaped n' k' true) :
    short.Nests long i [] ↔
      (Candidate.RanksWithin cs i (k + 1) ↔ Candidate.RanksWithin cs i (k' + 1)) := by
  constructor
  · intro hnests
    by_contra hown
    obtain ⟨hout, hin⟩ := Candidate.RanksWithin.of_not_iff (by omega) hown
    exact Candidate.leaveOut_not_nests hvalid hranking hpos hk.le hk' hout hin
      (hnests.map_index hshort hlong)
  · intro hown
    exact hshort.nests hlong hshaped hshaped' (Candidate.leaveOut_nests hvalid hk.le hk' hown)

end Nests

namespace Estimator

variable {e : Estimator} {s : FittedSet} {i k k' : Nat}

/-- Two queries for different numbers of neighbors, and the two rows that they answer for a point. -/
theorem queryFitted_twice (he : e.Reachable) (hs : e.fitted = some s)
    (hmetric : e.config.metric.Fits s.data.columns) {selfMatch : SelfMatch} (hi : i < s.data.rows)
    (hpos : 1 ≤ k) (hk : k < k') (hk' : k' ≤ selfMatch.candidateCount s.data.rows) :
    ∃ short long cs, (e.queryFitted (some k) selfMatch true).result = .ok short ∧
      (e.queryFitted (some k') selfMatch true).result = .ok long ∧
      short.Shaped s.data.rows k true ∧ long.Shaped s.data.rows k' true ∧
      Measured e.config.metric s.data (s.data.rowAt i) cs ∧
      short.Lists i (Candidate.chosen selfMatch k i cs) ∧
      long.Lists i (Candidate.chosen selfMatch k' i cs) := by
  have hcount : k ≤ selfMatch.candidateCount s.data.rows := by omega
  have hpos' : 1 ≤ k' := by omega
  obtain ⟨short, hshort, hshaped, hrows⟩ :=
    queryFitted_answers (n := some k) he hs hmetric.measures rfl hpos hcount true
  obtain ⟨long, hlong, hshaped', hrows'⟩ :=
    queryFitted_answers (n := some k') he hs hmetric.measures rfl hpos' hk' true
  obtain ⟨cs, hcs, hlists⟩ := hrows i hi
  obtain ⟨cs', hcs', hlists'⟩ := hrows' i hi
  rw [hcs'.unique hcs] at hlists'
  exact ⟨short, long, cs, hshort, hlong, hshaped, hshaped', hcs, hlists, hlists'⟩

/-- The lists of a point continue one another if the point itself may be listed. Otherwise they do so
exactly if the point makes both cuts or none, and if it makes the longer one only, then the longer
list has the first candidate of all in front. -/
theorem queryFitted_nests (he : e.Reachable) (hs : e.fitted = some s)
    (hmetric : e.config.metric.Fits s.data.columns) (hi : i < s.data.rows) (hpos : 1 ≤ k)
    (hk : k < k') :
    (k' ≤ s.data.rows → ∃ short long,
      (e.queryFitted (some k) .include true).result = .ok short ∧
      (e.queryFitted (some k') .include true).result = .ok long ∧
      short.Shaped s.data.rows k true ∧ long.Shaped s.data.rows k' true ∧
      short.Nests long i []) ∧
    (k' ≤ s.data.rows - 1 → ∃ short long cs ranked,
      (e.queryFitted (some k) .exclude true).result = .ok short ∧
      (e.queryFitted (some k') .exclude true).result = .ok long ∧
      short.Shaped s.data.rows k true ∧ long.Shaped s.data.rows k' true ∧
      Ranks e.config.metric s.data i cs ranked ∧
      (short.Nests long i [] ↔
        ((∃ c ∈ ranked.take (k + 1), c.index = i) ↔ ∃ c ∈ ranked.take (k' + 1), c.index = i)) ∧
      (¬short.Nests long i [] → ∃ top, ranked.head? = some top ∧ short.Nests long i [top])) := by
  constructor
  · intro hk'
    have hcount : k' ≤ SelfMatch.candidateCount .include s.data.rows := hk'
    obtain ⟨short, long, cs, hshort, hlong, hshaped, hshaped', -, hlists, hlists'⟩ :=
      queryFitted_twice he hs hmetric hi hpos hk hcount
    exact ⟨short, long, hshort, hlong, hshaped, hshaped', hlists.nests hlists' hshaped hshaped'
      (List.take_prefix_take_left hk.le)⟩
  · intro hk'
    have hcount : k' ≤ SelfMatch.candidateCount .exclude s.data.rows := hk'
    obtain ⟨short, long, cs, hshort, hlong, hshaped, hshaped', hcs, hlists, hlists'⟩ :=
      queryFitted_twice he hs hmetric hi hpos hk hcount
    have hlength : k' < cs.length := by
      rw [hcs.length_eq]
      omega
    obtain ⟨top, rest, hranking⟩ : ∃ top rest, Candidate.ranking cs = top :: rest := by
      refine List.exists_cons_of_length_pos ?_
      rw [Candidate.length_ranking]
      omega
    have hiff := hlists.nests_iff hcs.valid hranking hpos hk hlength hlists' hshaped hshaped'
    refine ⟨short, long, cs, _, hshort, hlong, hshaped, hshaped',
      hcs.ranks (Matrix.row?_eq (he.proper hs).wellFormed hi), hiff, ?_⟩
    intro hnests
    obtain ⟨hout, hin⟩ := Candidate.RanksWithin.of_not_iff (by omega) (mt hiff.mpr hnests)
    refine ⟨top, by rw [hranking, List.head?_cons], hlists.nests hlists' hshaped hshaped' ?_⟩
    exact Candidate.cons_leaveOut_nests hcs.valid hranking hk.le hout hin

theorem overlapping_nests :
    (∃ short long, (ofOverlapping.queryFitted (some 1) .include true).result = .ok short ∧
      (ofOverlapping.queryFitted (some 2) .include true).result = .ok long ∧
      short.Shaped 4 1 true ∧ long.Shaped 4 2 true ∧ short.Nests long 2 []) ∧
    ∃ short long cs ranked,
      (ofOverlapping.queryFitted (some 1) .exclude true).result = .ok short ∧
      (ofOverlapping.queryFitted (some 2) .exclude true).result = .ok long ∧
      short.Shaped 4 1 true ∧ long.Shaped 4 2 true ∧
      Ranks (.minkowski 2) overlapping.narrowed 2 cs ranked ∧
      (short.Nests long 2 [] ↔
        ((∃ c ∈ ranked.take 2, c.index = 2) ↔ ∃ c ∈ ranked.take 3, c.index = 2)) ∧
      (¬short.Nests long 2 [] → ∃ top, ranked.head? = some top ∧ short.Nests long 2 [top]) := by
  have h := queryFitted_nests (i := 2) (k := 1) reachable_ofOverlapping fitted_ofOverlapping
    fits_ofOverlapping (by decide) (by decide) (by decide : 1 < 2)
  exact ⟨h.1 (by decide), h.2 (by decide)⟩

/-- The third of three points that coincide is not among the first two candidates of its ranking,
but it is among the first three. -/
theorem overlapping_does_not_nest :
    ofOverlapping.Reachable ∧ ofOverlapping.config.metric.Fits 1 ∧
    (ofOverlapping.queryFitted (some 1) .exclude true).result.map (·.indices.row? 2)
      = .ok (some [1]) ∧
    (ofOverlapping.queryFitted (some 2) .exclude true).result.map (·.indices.row? 2)
      = .ok (some [0, 1]) ∧
    ¬[1] <+: [0, 1] :=
  ⟨reachable_ofOverlapping, fits_ofOverlapping, by decide +kernel, by decide +kernel, by decide⟩

end Estimator

end NeighborSearch
