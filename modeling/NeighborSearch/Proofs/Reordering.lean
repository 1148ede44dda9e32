import NeighborSearch.Proofs.Fitting
import NeighborSearch.Proofs.Shards

/-!
# Storing points in another order

The order in which points are stored gives them their indices and nothing else. Where the same
points are stored in another order, every query reports the same distances, and it lists the same
points wherever no two of them, nor the last one and its successor, are equally far away.
-/

namespace NeighborSearch

/-! ## Rows in another order -/

/-- `y` has the rows of `x` in another order: row `j` of `x` is row `σ j` of `y`. -/
structure Matrix.Reordered {α : Type} (x y : Matrix α) (σ : Equiv.Perm (Fin x.rows)) : Prop where
  rows : y.rows = x.rows
  columns : y.columns = x.columns
  row : ∀ j : Fin x.rows, y.row? (σ j) = x.row? j

namespace Matrix.Reordered

variable {α β : Type} {x y : Matrix α} {σ : Equiv.Perm (Fin x.rows)}

theorem map (h : x.Reordered y σ) (f : α → β) : (x.map f).Reordered (y.map f) σ := by
  refine ⟨h.rows, h.columns, ?_⟩
  intro j
  rw [row?_map, row?_map]
  exact congrArg _ (h.row j)

theorem mem_data (h : x.Reordered y σ) (hx : x.WellFormed) (hy : y.WellFormed) {v : α}
    (hv : v ∈ y.data) : v ∈ x.data := by
  obtain ⟨i, hi, hv⟩ := (mem_data_iff hy).mp hv
  obtain ⟨j, hj⟩ := σ.surjective ⟨i, h.rows ▸ hi⟩
  have hrow := h.row j
  rw [hj, row?_eq hy hi, row?_eq hx j.isLt, Option.some.injEq] at hrow
  exact (mem_data_iff hx).mpr ⟨j, j.isLt, hrow ▸ hv⟩

variable [Element α]

theorem storable (h : x.Reordered y σ) (hx : x.WellFormed) (hy : y.WellFormed) {allowed : Bool}
    (hstorable : x.Storable allowed) : y.Storable allowed :=
  hstorable.imp_right fun ⟨hallowed, hrange⟩ =>
    ⟨hallowed, fun v hv => hrange v (h.mem_data hx hy hv)⟩

theorem accepts (h : x.Reordered y σ) (hx : x.WellFormed) (hy : y.WellFormed) {e : Estimator}
    {allowed : Bool} (haccepts : e.Accepts x allowed) : e.Accepts y allowed where
  rows_pos := h.rows ▸ haccepts.rows_pos
  columns_pos := h.columns ▸ haccepts.columns_pos
  neighbors_pos := haccepts.neighbors_pos
  parameter := haccepts.parameter
  features := h.columns ▸ haccepts.features
  storable := h.storable hx hy haccepts.storable

end Matrix.Reordered

/-! ## Candidates in another order -/

namespace Candidate

/-- The distances are different, and not both of them are NaN. -/
def Apart (a b : Candidate) : Prop :=
  (a.distance == b.distance) = false ∧ ¬(a.distance.isNaN = true ∧ b.distance.isNaN = true)

theorem Apart.distance_ne {a b : Candidate} (h : a.Apart b) : a.distance ≠ b.distance := by
  intro heq
  obtain ⟨hne, hnan⟩ := h
  rw [heq] at hne hnan
  cases hb : b.distance.isNaN with
  | true => exact hnan ⟨hb, hb⟩
  | false =>
    rw [← Bool.not_eq_true, beq_iff_place64 hb hb] at hne
    exact hne rfl

/-- A candidate as far away as one before the cut is this one, if the distances up to the cut and
the next one after it are apart. -/
theorem eq_of_apart {ds : List Candidate} {k slot : Nat} {c d : Candidate}
    (hapart : ((ranking ds).take (k + 1)).Pairwise Apart) (hslot : slot < k)
    (hd : (ranking ds)[slot]? = some d) (hc : c ∈ ds) (heq : c.distance = d.distance) : c = d := by
  obtain ⟨place, hplace, rfl⟩ := List.getElem_of_mem (mem_ranking.mpr hc)
  obtain ⟨hlt, rfl⟩ := List.getElem?_eq_some_iff.mp hd
  have hne : ∀ i j (hi : i < (ranking ds).length) (hj : j < (ranking ds).length), i < j → j < k + 1 →
      (ranking ds)[i].distance ≠ (ranking ds)[j].distance := by
    intro i j hi hj hij hjk
    have hpair := List.pairwise_iff_getElem.mp hapart i j (by rw [List.length_take]; omega)
      (by rw [List.length_take]; omega) hij
    rw [List.getElem_take, List.getElem_take] at hpair
    exact hpair.distance_ne
  have hle : ∀ i j (hi : i < (ranking ds).length) (hj : j < (ranking ds).length), i < j →
      (ranking ds)[i] ≤ (ranking ds)[j] :=
    fun i j hi hj => List.pairwise_iff_getElem.mp (pairwise_ranking ds) i j hi hj
  rcases lt_trichotomy place slot with hbefore | rfl | hafter
  · exact absurd heq (hne place slot hplace hlt hbefore (by omega))
  · rfl
  · by_cases hcut : place ≤ k
    · exact absurd heq.symm (hne slot place hlt hplace hafter (by omega))
    · -- Then the candidate next after the cut lies between two that are equally far away.
      have hmiddle : k < (ranking ds).length := by omega
      have hkey := distanceKey_le (hle k place hmiddle hplace (by omega))
      rw [heq] at hkey
      exact absurd (distance_eq_of_le (hle slot k hlt hmiddle hslot) hkey)
        (hne slot k hlt hmiddle hslot (by omega))

end Candidate

/-- A permutation of the places makes a permutation of the list. -/
theorem perm_of_getElem? {α : Type} {xs ys : List α} {n : Nat} (hxs : xs.length = n)
    (hys : ys.length = n) (σ : Equiv.Perm (Fin n)) (h : ∀ j : Fin n, ys[(σ j : Nat)]? = xs[(j : Nat)]?) :
    xs.Perm ys := by
  subst hys
  have hx : xs = List.ofFn (ys.get ∘ σ) := by
    refine List.ext_getElem (by simp [hxs]) ?_
    intro j hj _
    have hget := h ⟨j, hxs ▸ hj⟩
    rw [List.getElem?_eq_getElem hj] at hget
    simpa using hget.symm
  rw [hx]
  exact (σ.ofFn_comp_perm ys.get).trans (List.Perm.of_eq (List.ofFn_get ys))

section Reordered

variable {metric : Metric} {reference other : Matrix Float32} {query : Point}
  {σ : Equiv.Perm (Fin reference.rows)} {cs ds : List Candidate}

/-- A row has the same distance under its old and its new index. -/
theorem Measured.reordered (h : reference.Reordered other σ)
    (hcs : Measured metric reference query cs) (hds : Measured metric other query ds)
    (j : Fin reference.rows) :
    ∃ d, cs[(j : Nat)]? = some ⟨d, j⟩ ∧ ds[(σ j : Nat)]? = some ⟨d, σ j⟩ := by
  obtain ⟨point, d, hpoint, hd, hc⟩ := hcs.entry j j.isLt
  obtain ⟨point', d', hpoint', hd', hc'⟩ := hds.entry (σ j) ((σ j).isLt.trans_eq h.rows.symm)
  rw [h.row j, hpoint, Option.some.injEq] at hpoint'
  rw [← hpoint', hd, Option.some.injEq] at hd'
  rw [← hd'] at hc'
  exact ⟨d, hc, hc'⟩

/-- Reordered points are ranked with the same distances. -/
theorem Measured.map_distance_ranking (h : reference.Reordered other σ)
    (hcs : Measured metric reference query cs) (hds : Measured metric other query ds) :
    (Candidate.ranking cs).map Candidate.distance
      = (Candidate.ranking ds).map Candidate.distance := by
  refine Candidate.map_distance_ranking (perm_of_getElem? (n := reference.rows) ?_ ?_ σ ?_)
  · rw [List.length_map, hcs.length_eq]
  · rw [List.length_map, hds.length_eq, h.rows]
  · intro j
    obtain ⟨d, hc, hd⟩ := hcs.reordered h hds j
    rw [List.getElem?_map, List.getElem?_map, hc, hd]
    rfl

/-- Where the distances are apart, the rankings name the same rows. -/
theorem Measured.getElem?_ranking_reordered (h : reference.Reordered other σ)
    (hcs : Measured metric reference query cs) (hds : Measured metric other query ds)
    {k slot : Nat} (hapart : ((Candidate.ranking cs).take (k + 1)).Pairwise Candidate.Apart)
    (hslot : slot < k) {c d : Candidate} (hc : (Candidate.ranking cs)[slot]? = some c)
    (hd : (Candidate.ranking ds)[slot]? = some d) :
    ∃ j : Fin reference.rows, c.index = j ∧ d.index = σ j := by
  have hsame := congrArg (·[slot]?) (hcs.map_distance_ranking h hds)
  simp only [List.getElem?_map, hc, hd, Option.map_some, Option.some.injEq] at hsame
  obtain ⟨place, hplace⟩ := List.getElem?_of_mem
    (Candidate.mem_ranking.mp (List.mem_of_getElem? hd))
  have hlt : place < reference.rows := by
    rw [← h.rows, ← hds.length_eq]
    exact (List.getElem?_eq_some_iff.mp hplace).1
  -- `d` is a row of `reference` under its new index, and this row is as far away as `c` is.
  obtain ⟨j, hj⟩ := σ.surjective ⟨place, hlt⟩
  obtain ⟨distance, hfirst, hsecond⟩ := hcs.reordered h hds j
  rw [hj, hplace, Option.some.injEq] at hsecond
  have heq := Candidate.eq_of_apart hapart hslot hc (List.mem_of_getElem? hfirst)
    (by rw [hsame, hsecond])
  refine ⟨j, ?_, ?_⟩
  · rw [← heq]
  · rw [hsecond, hj]

end Reordered

/-! ## Answers -/

namespace Neighbors

variable {found found' : Neighbors} {rows k i : Nat}

theorem Lists.get?_indices {row : List Candidate} (h : found.Lists i row)
    {withDistances : Bool} (hshaped : found.Shaped rows k withDistances) (hi : i < rows)
    {slot : Nat} (hslot : slot < k) {c : Candidate} (hc : row[slot]? = some c) :
    found.indices.get? i slot = some c.index := by
  obtain ⟨hrows, hcolumns⟩ := Prod.ext_iff.mp hshaped.shape
  have hi' : i < found.indices.rows := hi.trans_eq hrows.symm
  have hrow := h.indices
  rw [Matrix.row?_eq hshaped.wellFormed hi', Option.some.injEq] at hrow
  rw [← Matrix.getElem?_rowAt hshaped.wellFormed hi' (hslot.trans_eq hcolumns.symm), hrow,
    List.getElem?_map, hc]
  rfl

/-- Answers of one shape report the same distances if their rows do. -/
theorem distances_eq {withDistances : Bool} (hshaped : found.Shaped rows k withDistances)
    (hshaped' : found'.Shaped rows k withDistances)
    (h : ∀ i < rows, ∃ row row', found.Lists i row ∧ found'.Lists i row' ∧
      row.map Candidate.distance = row'.map Candidate.distance) :
    found'.distances = found.distances := by
  have hasked := hshaped'.asked.trans hshaped.asked.symm
  cases hds : found.distances with
  | none =>
    rw [hds] at hasked
    exact Option.isNone_iff_eq_none.mp (by simpa using hasked)
  | some ds =>
    rw [hds] at hasked
    obtain ⟨ds', hds'⟩ := Option.isSome_iff_exists.mp hasked
    obtain ⟨hshape, hwell⟩ := hshaped.distances ds hds
    obtain ⟨hshape', hwell'⟩ := hshaped'.distances ds' hds'
    rw [hds', Option.some.injEq]
    refine Matrix.eq_of_rows hwell' hwell (hshape'.trans hshape.symm) ?_
    intro i hi
    rw [show ds'.rows = rows from congrArg Prod.fst hshape'] at hi
    obtain ⟨row, row', hrow, hrow', hsame⟩ := h i hi
    rw [hrow'.distances ds' hds', hrow.distances ds hds]
    exact congrArg some (Candidate.map_narrow_eq hsame).symm

/-- In row `i`, the first answer names rows of a matrix and the second one names the same rows by
their indices after a permutation. -/
def Corresponds (found found' : Neighbors) {n : Nat} (σ : Equiv.Perm (Fin n)) (i k : Nat) : Prop :=
  ∀ slot < k, ∃ j : Fin n, found.indices.get? i slot = some (j : Nat) ∧
    found'.indices.get? i slot = some (σ j : Nat)

/-- Two answers that list the leading candidates correspond where these are apart. -/
theorem corresponds_of_apart {metric : Metric} {reference other : Matrix Float32} {query : Point}
    {σ : Equiv.Perm (Fin reference.rows)} {cs ds : List Candidate} {withDistances : Bool}
    (h : reference.Reordered other σ) (hcs : Measured metric reference query cs)
    (hds : Measured metric other query ds) (hk : k ≤ reference.rows)
    (hshaped : found.Shaped rows k withDistances) (hshaped' : found'.Shaped rows k withDistances)
    (hi : i < rows) (hrow : found.Lists i ((Candidate.ranking cs).take k))
    (hrow' : found'.Lists i ((Candidate.ranking ds).take k))
    (hapart : ((Candidate.ranking cs).take (k + 1)).Pairwise Candidate.Apart) :
    found.Corresponds found' σ i k := by
  intro slot hslot
  obtain ⟨c, hc⟩ : ∃ c, (Candidate.ranking cs)[slot]? = some c := by
    refine ⟨_, List.getElem?_eq_getElem ?_⟩
    rw [Candidate.length_ranking, hcs.length_eq]
    omega
  obtain ⟨d, hd⟩ : ∃ d, (Candidate.ranking ds)[slot]? = some d := by
    refine ⟨_, List.getElem?_eq_getElem ?_⟩
    rw [Candidate.length_ranking, hds.length_eq, h.rows]
    omega
  obtain ⟨j, hfirst, hsecond⟩ := hcs.getElem?_ranking_reordered h hds hapart hslot hc hd
  refine ⟨j, ?_, ?_⟩
  · rw [← hfirst]
    exact hrow.get?_indices hshaped hi hslot ((List.getElem?_take_of_lt hslot).trans hc)
  · rw [← hsecond]
    exact hrow'.get?_indices hshaped' hi hslot ((List.getElem?_take_of_lt hslot).trans hd)

end Neighbors

namespace Estimator

variable {α : Type} [Element α] {x y : Matrix α} {σ : Equiv.Perm (Fin x.rows)}

/-- The two answers report the same distances. In a row where the distances of the listed points and
of the next one after them are apart, they name the same points. -/
structure AgreeThrough (metric : Metric) (reference queries : Matrix Float32)
    (σ : Equiv.Perm (Fin reference.rows)) (k : Nat) (found found' : Neighbors) : Prop where
  shape : found'.shape = found.shape
  distances : found'.distances = found.distances
  indices : ∀ i < queries.rows, ∃ query cs nearest, queries.row? i = some query ∧
    Measured metric reference query cs ∧
    Candidate.Leading (min (k + 1) reference.rows) cs nearest ∧
    found.Lists i (nearest.take k) ∧
    (nearest.Pairwise Candidate.Apart → found.Corresponds found' σ i k)

/-- Reordered points have the same distances in their answers, and corresponding indices where
distances are apart. -/
theorem collect_reordered {metric : Metric} {reference other queries : Matrix Float32} {k : Nat}
    {σ : Equiv.Perm (Fin reference.rows)} (h : reference.Reordered other σ)
    (href : reference.WellFormed) (hother : other.WellFormed) (hqueries : queries.WellFormed)
    (hcolumns : queries.columns = reference.columns) (hmetric : metric.Measures reference.columns)
    (hpos : 1 ≤ k) (hk : k ≤ reference.rows) (withDistances : Bool) :
    ∃ found found', collect metric reference queries k .include withDistances = .ok found ∧
      collect metric other queries k .include withDistances = .ok found' ∧
      found.Shaped queries.rows k withDistances ∧
      AgreeThrough metric reference queries σ k found found' := by
  have hcount : k ≤ SelfMatch.candidateCount .include reference.rows := hk
  have hcount' : k ≤ SelfMatch.candidateCount .include other.rows := hk.trans_eq h.rows.symm
  obtain ⟨found, hfound, hshaped, hrows⟩ :=
    exists_collect href hqueries hcolumns hmetric hpos hcount withDistances
  obtain ⟨found', hfound', hshaped', hrows'⟩ :=
    exists_collect hother hqueries (hcolumns.trans h.columns.symm) (h.columns ▸ hmetric) hpos
      hcount' withDistances
  refine ⟨found, found', hfound, hfound', hshaped, hshaped'.shape.trans hshaped.shape.symm, ?_, ?_⟩
  · refine Neighbors.distances_eq hshaped hshaped' ?_
    intro i hi
    obtain ⟨cs, hcs, hrow⟩ := hrows i hi
    obtain ⟨ds, hds, hrow'⟩ := hrows' i hi
    refine ⟨_, _, hrow, hrow', ?_⟩
    simp only [Candidate.chosen, List.map_take, hcs.map_distance_ranking h hds]
  · intro i hi
    obtain ⟨cs, hcs, hrow⟩ := hrows i hi
    obtain ⟨ds, hds, hrow'⟩ := hrows' i hi
    have htake : (Candidate.ranking cs).take (min (k + 1) reference.rows)
        = (Candidate.ranking cs).take (k + 1) := by
      rw [← hcs.length_eq, ← Candidate.length_ranking cs, ← List.take_eq_take_min]
    refine ⟨_, cs, _, Matrix.row?_eq hqueries hi, hcs,
      Candidate.leading_take_ranking hcs.valid (hcs.length_eq ▸ Nat.min_le_right _ _), ?_, ?_⟩
    · rw [htake, List.take_take, Nat.min_eq_left (Nat.le_succ k)]
      exact hrow
    · intro hapart
      rw [htake] at hapart
      exact Neighbors.corresponds_of_apart h hcs hds hk hshaped hshaped' hi hrow hrow' hapart

/-- Fitting a matrix with its rows in another order succeeds as well, and every query then reports
the same distances, and the same points where the distances are apart. -/
theorem reordered_points_agree (hx : x.WellFormed) (hy : y.WellFormed) (h : x.Reordered y σ)
    {e : Estimator} {allowed : Bool} (hfit : (e.fit x allowed).2.result = .ok ()) :
    (e.fit y allowed).2.result = .ok () ∧
    ∀ (settings : List Setting) (n : Option Nat) (k : Nat),
      let first := (e.fit x allowed).1.configured settings
      let second := (e.fit y allowed).1.configured settings
      first.config.metric.Fits x.columns → n.getD first.config.neighbors = k →
      1 ≤ k → k ≤ x.rows →
      ∀ {β : Type} [Element β] (q : Matrix β), q.WellFormed → q.columns = x.columns →
        q.Storable true → ∀ withDistances, ∃ found found',
          (first.query q n withDistances).result = .ok found ∧
          (second.query q n withDistances).result = .ok found' ∧
          found.Shaped q.rows k withDistances ∧
          AgreeThrough first.config.metric x.narrowed q.narrowed σ k found found' := by
  rcases e.fit_cases x allowed with ⟨haccepts, -, hstate⟩ | ⟨-, ⟨err, herr, -⟩, -⟩
  swap
  · cases herr.symm.trans hfit
  rcases e.fit_cases y allowed with ⟨-, hfit', hstate'⟩ | ⟨hrefuses, -, -⟩
  swap
  · exact absurd (h.accepts hx hy haccepts) hrefuses
  refine ⟨hfit', ?_⟩
  intro settings n k first second hmetric hn hpos hk β _ q hq hcolumns hstorable withDistances
  have hs : first.fitted = some ⟨x.narrowed, elementType α⟩ := by
    rw [configured_fitted, hstate]
  have hs' : second.fitted = some ⟨y.narrowed, elementType α⟩ := by
    rw [configured_fitted, hstate']
  have hconfig : second.config = first.config := by
    refine configured_config ?_ settings
    rw [hstate, hstate']
  have hqueries := Matrix.toFloat32_eq_ok_iff.mpr ⟨hstorable, rfl⟩
  rw [query_eq_collect hs hcolumns hn hpos hk hqueries,
    query_eq_collect hs' (hcolumns.trans h.columns.symm) (hconfig ▸ hn) hpos (h.rows ▸ hk) hqueries,
    hconfig]
  exact collect_reordered (h.map _) hx.narrowed hy.narrowed hq.narrowed hcolumns hmetric.measures
    hpos hk withDistances

/-- Two points on a line, and the same points the other way round. -/
def line : Matrix Float32 := ⟨2, 1, #[4, 9]⟩

/-- The points of the line in reverse. -/
def lineBack : Matrix Float32 := ⟨2, 1, #[9, 4]⟩

/-- The first point and the second one change places. -/
def exchange : Equiv.Perm (Fin 2) := Equiv.swap 0 1

theorem reordered_lineBack : line.Reordered lineBack exchange := by
  refine ⟨rfl, rfl, ?_⟩
  decide

theorem line_points_agree :
    let e := (({} : Estimator).fit line true).1
    let e' := (({} : Estimator).fit lineBack true).1
    ∃ found found', (e.query (⟨1, 1, #[5]⟩ : Matrix Float) (some 2) true).result = .ok found ∧
      (e'.query (⟨1, 1, #[5]⟩ : Matrix Float) (some 2) true).result = .ok found' ∧
      found.Shaped 1 2 true ∧
      AgreeThrough (.minkowski 2) line.narrowed (⟨1, 1, #[5]⟩ : Matrix Float).narrowed exchange
        2 found found' := by
  have hline : line.WellFormed := rfl
  have hback : lineBack.WellFormed := rfl
  have hfit : (({} : Estimator).fit line true).2.result = .ok () := rfl
  have h := reordered_points_agree hline hback reordered_lineBack hfit
  refine h.2 [] (some 2) 2 ⟨rfl, rfl⟩ rfl (by decide) (by decide) (⟨1, 1, #[5]⟩ : Matrix Float) rfl
    rfl (Or.inr ⟨rfl, ?_⟩) true
  decide

end Estimator

end NeighborSearch
