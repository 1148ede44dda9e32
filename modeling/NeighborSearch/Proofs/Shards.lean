import NeighborSearch.Proofs.Checks
import NeighborSearch.Proofs.Nearest

/-!
# Searching in parts

The nearest rows of a stack are found by merging those of its parts, so rows that are added below
leave every neighbor at least as near as it was. This also holds of the distances that an estimator
reports, with one exception. A stored point that is not to count as its own neighbor may be pushed
out of the cut by the new rows; then the first candidate is dropped in its place, and the slots
before the point's old place show a later candidate than before.
-/

namespace NeighborSearch

/-! ## Merging -/

/-- The first `k` members of a merge do not need more than `k` members of either list. -/
theorem take_merge {α : Type} (le : α → α → Bool) (xs ys : List α) (k : Nat) :
    (xs.merge ys le).take k = ((xs.take k).merge (ys.take k) le).take k := by
  induction k generalizing xs ys with
  | zero => simp
  | succ k ih =>
    match xs, ys with
    | [], ys => simp
    | x :: xs, [] => simp
    | x :: xs, y :: ys =>
      -- The tail of a merge takes `k` members of one list and up to `k + 1` of the other one.
      have hmore : ∀ z : α, ∀ zs : List α, (z :: zs.take k).take k = (z :: zs).take k := by
        intro z zs
        rw [← List.take_succ_cons, List.take_take, Nat.min_eq_left (Nat.le_succ k)]
      have hsame : ∀ zs : List α, (zs.take k).take k = zs.take k := by
        intro zs
        rw [List.take_take, Nat.min_self]
      simp only [List.take_succ_cons, List.cons_merge_cons]
      split_ifs
      · rw [List.take_succ_cons, List.take_succ_cons, ih xs (y :: ys),
          ih (xs.take k) (y :: ys.take k), hmore, hsame]
      · rw [List.take_succ_cons, List.take_succ_cons, ih (x :: xs) ys,
          ih (x :: xs.take k) (ys.take k), hmore, hsame]

namespace Candidate

/-- The same stored point after `n` others have been put before it. -/
def shift (n : Nat) (c : Candidate) : Candidate := ⟨c.distance, n + c.index⟩

variable {cs ds : List Candidate} {c d : Candidate} {i k slot n : Nat}

theorem shift_le_shift (n : Nat) {a b : Candidate} (h : a ≤ b) : a.shift n ≤ b.shift n := by
  rw [le_iff_before, before_iff] at h ⊢
  change toLex (_, toLex (_, n + a.index)) ≤ toLex (_, toLex (_, n + b.index))
  simp only [rankKey, Prod.Lex.toLex_le_toLex, Nat.add_le_add_iff_left] at h ⊢
  exact h

/-- Counting from a later index does not change a ranking. -/
theorem ranking_map_shift (n : Nat) (cs : List Candidate) :
    ranking (cs.map (shift n)) = (ranking cs).map (shift n) := by
  refine (eq_ranking ((ranking_perm cs).map _) ?_).symm
  exact List.pairwise_map.mpr ((pairwise_ranking cs).imp (shift_le_shift n))

/-- The ranking of all candidates merges the rankings of two parts. -/
theorem ranking_append (cs ds : List Candidate) :
    ranking (cs ++ ds) = (ranking cs).merge (ranking ds) before := by
  refine (eq_ranking ?_ ?_).symm
  · exact (List.merge_perm_append before).trans ((ranking_perm cs).append (ranking_perm ds))
  · refine List.pairwise_merge (fun a b c hab hbc => le_trans (a := a) hab hbc) ?_ _ _
      (pairwise_ranking cs) (pairwise_ranking ds)
    intro a b
    rw [Bool.or_eq_true]
    exact le_total a b

/-- The first candidates of all are among the first ones of the parts. -/
theorem take_ranking_append (k : Nat) (cs ds : List Candidate) :
    (ranking (cs ++ ds)).take k
      = (((ranking cs).take k).merge ((ranking ds).take k) before).take k := by
  rw [ranking_append, take_merge]

/-! ## More candidates -/

theorem ranking_sublist (h : cs.Sublist ds) : (ranking cs).Sublist (ranking ds) := by
  refine List.sublist_of_subperm_of_pairwise ?_ (pairwise_ranking cs) (pairwise_ranking ds)
  exact (ranking_perm cs).subperm.trans (h.subperm.trans (ranking_perm ds).symm.subperm)

/-- With more candidates to choose from, no place of the ranking goes to a later candidate. -/
theorem getElem?_ranking_le (h : cs.Sublist ds) (hc : (ranking cs)[slot]? = some c)
    (hd : (ranking ds)[slot]? = some d) : d ≤ c := by
  obtain ⟨place, hplace⟩ :=
    List.sublist_iff_exists_orderEmbedding_getElem?_eq.mp (ranking_sublist h)
  rw [hplace slot] at hc
  obtain ⟨hlt, rfl⟩ := List.getElem?_eq_some_iff.mp hc
  obtain ⟨hslot, rfl⟩ := List.getElem?_eq_some_iff.mp hd
  rcases (place.strictMono.le_apply : slot ≤ place slot).eq_or_lt with heq | hbefore
  · simp only [← heq]
    exact le_rfl
  · exact List.pairwise_iff_getElem.mp (pairwise_ranking ds) slot _ hslot hlt hbefore

/-- Who makes a cut among more candidates makes it among fewer of them. -/
theorem RanksWithin.of_sublist (h : cs.Sublist ds) (hds : Valid ds)
    (hown : ∃ c ∈ cs, c.index = i) (hin : RanksWithin ds i k) : RanksWithin cs i k := by
  obtain ⟨c, hc, hci⟩ := hown
  obtain ⟨d, hd, hdi⟩ := hin
  have hmem : d ∈ ds := mem_ranking.mp (List.mem_of_mem_take hd)
  obtain rfl : d = c :=
    List.inj_on_of_nodup_map hds.distinct hmem (h.subset hc) (hdi.trans hci.symm)
  obtain ⟨slot, hslot, hcut, rfl⟩ : ∃ slot, ∃ hlt : slot < (ranking ds).length, slot < k ∧
      (ranking ds)[slot] = d := by
    obtain ⟨slot, hslot, rfl⟩ := List.mem_take_iff_getElem.mp hd
    exact ⟨slot, by omega, by omega, rfl⟩
  obtain ⟨place, hplace⟩ := List.getElem?_of_mem (mem_ranking.mpr hc)
  have hplacelt := (List.getElem?_eq_some_iff.mp hplace).1
  have hlength := (ranking_sublist h).length_le
  refine ⟨_, List.mem_take_iff_getElem.mpr ⟨place, ?_, (List.getElem?_eq_some_iff.mp hplace).2⟩, hci⟩
  -- Otherwise another candidate would have to come after this one and not after it.
  by_contra hout
  have hafter : slot < place := by omega
  have hlt := List.pairwise_iff_getElem.mp (pairwise_lt_ranking hds) slot place hslot (by omega)
    hafter
  exact absurd (getElem?_ranking_le h hplace (List.getElem?_eq_getElem (by omega)))
    (not_le_of_gt hlt)

/-! ## Leaving out -/

theorem getElem?_eraseP {α : Type} (p : α → Bool) (xs : List α) (slot : Nat) :
    (xs.eraseP p)[slot]? = if (xs.take (slot + 1)).any p then xs[slot + 1]? else xs[slot]? := by
  induction xs generalizing slot with
  | nil => simp
  | cons x xs ih =>
    cases hx : p x with
    | true => simp [hx]
    | false =>
      rw [List.eraseP_cons_of_neg (by simp [hx])]
      cases slot with
      | zero => simp [hx]
      | succ slot => simp [hx, ih]

/-- A point that makes the cut keeps those before it in their places. All others move up. -/
theorem getElem?_chosen_exclude (hslot : slot < k) :
    (chosen .exclude k i cs)[slot]? =
      if RanksWithin cs i (k + 1) ∧ ¬RanksWithin cs i (slot + 1) then (ranking cs)[slot]?
      else (ranking cs)[slot + 1]? := by
  have htake : ((ranking cs).take (k + 1)).take (slot + 1) = (ranking cs).take (slot + 1) := by
    rw [List.take_take, Nat.min_eq_left (by omega)]
  have hany : ∀ n, ((ranking cs).take n).any (·.index == i) = true ↔ RanksWithin cs i n := by
    intro n
    simp [RanksWithin]
  simp only [chosen, leaveOut, hany]
  by_cases hown : RanksWithin cs i (k + 1)
  · rw [if_pos hown, getElem?_eraseP, htake]
    simp only [hany, hown, true_and, ite_not]
    rw [List.getElem?_take_of_lt (by omega), List.getElem?_take_of_lt (by omega)]
  · rw [if_neg hown, if_neg (fun h => hown h.1), List.getElem?_drop, Nat.add_comm 1,
      List.getElem?_take_of_lt (by omega)]

/-- The point `i` makes the cut among the candidates `cs`, after slot `slot` of the answer, and it
misses the cut among `ds`. -/
structure PushedOut (cs ds : List Candidate) (i k slot : Nat) : Prop where
  before : RanksWithin cs i (k + 1)
  later : ¬RanksWithin cs i (slot + 1)
  after : ¬RanksWithin ds i (k + 1)

/-- With more candidates to choose from, no slot of an answer goes to a later candidate unless it is
about other points and its own point is pushed out. -/
theorem getElem?_chosen_le {selfMatch : SelfMatch} (h : cs.Sublist ds) (hds : Valid ds)
    (hown : selfMatch = .exclude → ∃ c ∈ cs, c.index = i) (hslot : slot < k)
    (hcut : selfMatch = .exclude → ¬PushedOut cs ds i k slot)
    (hc : (chosen selfMatch k i cs)[slot]? = some c)
    (hd : (chosen selfMatch k i ds)[slot]? = some d) : d ≤ c := by
  match selfMatch with
  | .include =>
    rw [chosen, List.getElem?_take_of_lt hslot] at hc hd
    exact getElem?_ranking_le h hc hd
  | .exclude =>
    rw [getElem?_chosen_exclude hslot] at hc hd
    split_ifs at hc with hcs
    · have hin : RanksWithin ds i (k + 1) := by
        by_contra hout
        exact hcut rfl ⟨hcs.1, hcs.2, hout⟩
      have hlater : ¬RanksWithin ds i (slot + 1) := fun hlater =>
        hcs.2 (hlater.of_sublist h hds (hown rfl))
      rw [if_pos ⟨hin, hlater⟩] at hd
      exact getElem?_ranking_le h hc hd
    · -- The candidate of the next place is no earlier than the one in this place.
      split_ifs at hd
      · obtain ⟨hnext, rfl⟩ := List.getElem?_eq_some_iff.mp hc
        have hnext' : slot + 1 < (ranking ds).length :=
          hnext.trans_le (ranking_sublist h).length_le
        obtain ⟨hlt, rfl⟩ := List.getElem?_eq_some_iff.mp hd
        exact (List.pairwise_iff_getElem.mp (pairwise_ranking ds) slot _ hlt hnext'
          (Nat.lt_succ_self slot)).trans (getElem?_ranking_le h (List.getElem?_eq_getElem hnext)
            (List.getElem?_eq_getElem hnext'))
      · exact getElem?_ranking_le h hc hd

end Candidate

/-! ## Stacks of stored points -/

theorem Candidate.distance_le {c d : Candidate} (hc : Unsigned c.distance)
    (hd : Unsigned d.distance) (h : d ≤ c) :
    c.distance.isNaN = true ∨ d.distance.isNaN = false ∧ d.distance ≤ c.distance := by
  cases hnan : c.distance.isNaN with
  | true => exact Or.inl rfl
  | false =>
    rcases h.eq_or_lt with rfl | hlt
    · exact Or.inr ⟨hnan, (le_iff_place64 hnan hnan).mpr le_rfl⟩
    · exact Or.inr (((precedes_iff_lt hd hc).mpr hlt).distance_le hnan)

section Stacks

variable {metric : Metric} {upper lower : Matrix Float32} {query : Point}
  {cs ds : List Candidate}

/-- The candidates in a stack are those in its parts, the later ones counted on. -/
theorem Measured.append (hupper : upper.WellFormed) (hlower : lower.WellFormed)
    (hcolumns : upper.columns = lower.columns) (hcs : Measured metric upper query cs)
    (hds : Measured metric lower query ds) :
    Measured metric (upper.append lower) query (cs ++ ds.map (Candidate.shift upper.rows)) := by
  have hstack := hupper.append hlower hcolumns
  refine ⟨?_, ?_⟩
  · rw [List.length_append, List.length_map, hcs.length_eq, hds.length_eq]
    rfl
  · intro j hj
    rw [Matrix.row?_eq hstack hj]
    by_cases hfront : j < upper.rows
    · obtain ⟨point, d, hpoint, hd, hc⟩ := hcs.entry j hfront
      rw [Matrix.row?_eq hupper hfront] at hpoint
      rw [Matrix.rowAt_append_left hupper hfront, hpoint]
      exact ⟨point, d, rfl, hd, by rw [List.getElem?_append_left (hcs.length_eq ▸ hfront), hc]⟩
    · obtain ⟨j, rfl⟩ := Nat.exists_eq_add_of_le (not_lt.mp hfront)
      have hback : j < lower.rows := Nat.add_lt_add_iff_left.mp hj
      obtain ⟨point, d, hpoint, hd, hc⟩ := hds.entry j hback
      rw [Matrix.row?_eq hlower hback] at hpoint
      rw [Matrix.rowAt_append_right hupper hcolumns, hpoint]
      refine ⟨point, d, rfl, hd, ?_⟩
      rw [← hcs.length_eq, List.getElem?_append_right (by omega), Nat.add_sub_cancel_left,
        List.getElem?_map, hc]
      rfl

end Stacks

/-- The `k` nearest rows of a matrix in the way a selection finds them. -/
def Selection.nearestRows? (S : Selection) (metric : Metric) (reference : Matrix Float32) (k : Nat)
    (query : Point) : Option (List Candidate) := do
  let points ← reference.rows?
  let cs ← candidates? metric points query
  return S.nearest k cs

theorem Selection.exists_nearestRows? (S : Selection) {metric : Metric}
    {reference : Matrix Float32} {query : Point} (href : reference.WellFormed)
    (hcolumns : reference.columns = query.length) (hmetric : metric.Measures query.length)
    (k : Nat) :
    ∃ cs, Measured metric reference query cs ∧
      S.nearestRows? metric reference k query = some ((Candidate.ranking cs).take k) := by
  obtain ⟨cs, hcs⟩ := exists_candidates href (hcolumns.symm ▸ hmetric) hcolumns.symm
  refine ⟨cs, measured_of_candidates? href hcs, ?_⟩
  rw [nearestRows?, Matrix.rows?_eq href, Option.bind_eq_bind, Option.bind_some, hcs,
    Option.bind_eq_bind, Option.bind_some, S.nearest_eq]
  rfl

/-- The nearest rows of a stack are the first ones of the merged nearest rows of its parts. -/
theorem Selection.nearestRows?_append (S : Selection) {metric : Metric}
    {upper lower : Matrix Float32} {query : Point} (hupper : upper.WellFormed)
    (hlower : lower.WellFormed) (hcolumns : upper.columns = query.length)
    (hcolumns' : lower.columns = query.length) (hmetric : metric.Measures query.length) (k : Nat) :
    ∃ front back whole, S.nearestRows? metric upper k query = some front ∧
      S.nearestRows? metric lower k query = some back ∧
      S.nearestRows? metric (upper.append lower) k query = some whole ∧
      whole = (front.merge (back.map (Candidate.shift upper.rows)) Candidate.before).take k ∧
      ∀ (slot : Nat) (c d : Candidate), front[slot]? = some c → whole[slot]? = some d →
        c.distance.isNaN = true ∨ d.distance.isNaN = false ∧ d.distance ≤ c.distance := by
  have hsame : upper.columns = lower.columns := hcolumns.trans hcolumns'.symm
  obtain ⟨cs, hcs, hfront⟩ := S.exists_nearestRows? hupper hcolumns hmetric k
  obtain ⟨ds, hds, hback⟩ := S.exists_nearestRows? hlower hcolumns' hmetric k
  obtain ⟨all, hall, hwhole⟩ :=
    S.exists_nearestRows? (hupper.append hlower hsame) hcolumns hmetric k
  obtain rfl := hall.unique (hcs.append hupper hlower hsame hds)
  have hmerge := Candidate.take_ranking_append k cs (ds.map (Candidate.shift upper.rows))
  rw [Candidate.ranking_map_shift, ← List.map_take] at hmerge
  refine ⟨_, _, _, hfront, hback, hwhole, hmerge, ?_⟩
  intro slot c d hc hd
  have hranked := (List.take_sublist k _).subset (List.mem_of_getElem? hc)
  have hranked' := (List.take_sublist k _).subset (List.mem_of_getElem? hd)
  have hslot := (List.getElem?_eq_some_iff.mp hc).1
  rw [List.length_take] at hslot
  rw [List.getElem?_take_of_lt (by omega)] at hc hd
  exact Candidate.distance_le (hcs.valid.ranking.unsigned _ hranked)
    (hall.valid.ranking.unsigned _ hranked')
    (Candidate.getElem?_ranking_le (List.sublist_append_left cs _) hc hd)

/-! ## What is reported -/

/-- In this slot of row `i`, the neighbor in `found'` is reported no farther away than the one in
`found`. NaN is the largest distance. -/
def Neighbors.NoFarther (found found' : Neighbors) (i slot : Nat) : Prop :=
  ∃ ds ds' d d', found.distances = some ds ∧ found'.distances = some ds' ∧
    ds.get? i slot = some d ∧ ds'.get? i slot = some d' ∧
    (d.isNaN = true ∨ d'.isNaN = false ∧ d' ≤ d)

section Reported

variable {found found' : Neighbors} {rows rows' k i slot : Nat}

theorem Neighbors.Lists.exists_distance {row : List Candidate} {c : Candidate}
    (h : found.Lists i row) (hshaped : found.Shaped rows k true) (hi : i < rows) (hslot : slot < k)
    (hc : row[slot]? = some c) :
    ∃ ds, found.distances = some ds ∧ ds.get? i slot = some (narrow c.distance) := by
  obtain ⟨ds, hds⟩ := Option.isSome_iff_exists.mp hshaped.asked
  obtain ⟨hshape, hwell⟩ := hshaped.distances ds hds
  obtain ⟨hrows, hcolumns⟩ := Prod.ext_iff.mp hshape
  have hi' : i < ds.rows := hi.trans_eq hrows.symm
  have hrow := h.distances ds hds
  rw [Matrix.row?_eq hwell hi', Option.some.injEq] at hrow
  refine ⟨ds, hds, ?_⟩
  rw [← Matrix.getElem?_rowAt hwell hi' (hslot.trans_eq hcolumns.symm), hrow, List.getElem?_map, hc]
  rfl

theorem Neighbors.Lists.noFarther {row row' : List Candidate} {c d : Candidate}
    (h : found.Lists i row) (h' : found'.Lists i row') (hshaped : found.Shaped rows k true)
    (hshaped' : found'.Shaped rows' k true) (hi : i < rows) (hi' : i < rows') (hslot : slot < k)
    (hc : row[slot]? = some c) (hd : row'[slot]? = some d) (hunsigned : Unsigned c.distance)
    (hunsigned' : Unsigned d.distance) (hle : d ≤ c) : found.NoFarther found' i slot := by
  obtain ⟨ds, hds, hget⟩ := h.exists_distance hshaped hi hslot hc
  obtain ⟨ds', hds', hget'⟩ := h'.exists_distance hshaped' hi' hslot hd
  refine ⟨ds, ds', _, _, hds, hds', hget, hget', ?_⟩
  rw [isNaN_narrow, isNaN_narrow]
  cases hnan : c.distance.isNaN with
  | true => exact Or.inl rfl
  | false =>
    have hnumber : c.distance.isNaN ≠ true := by
      rw [hnan]
      exact Bool.false_ne_true
    obtain ⟨hnan', hle⟩ := (Candidate.distance_le hunsigned hunsigned' hle).resolve_left hnumber
    exact Or.inr ⟨hnan', narrow_le_narrow hnan' hnan hle⟩

end Reported

namespace Estimator

variable {metric : Metric} {upper lower : Matrix Float32} {k : Nat}

/-- Every query point that both searches look up has its neighbors no farther away in the stack than
in its upper part, unless its own point is pushed out. -/
theorem collect_stack (selfMatch : SelfMatch) {queries queries' : Matrix Float32}
    (hupper : upper.WellFormed) (hlower : lower.WellFormed) (hcolumns : upper.columns = lower.columns)
    (hmetric : metric.Measures upper.columns) (hqueries : queries.WellFormed)
    (hqueries' : queries'.WellFormed) (hwidth : queries.columns = upper.columns)
    (hwidth' : queries'.columns = upper.columns) (hrows : queries.rows ≤ queries'.rows)
    (hsame : ∀ i < queries.rows, queries'.rowAt i = queries.rowAt i)
    (hown : selfMatch = .exclude → queries.rows ≤ upper.rows) (hpos : 1 ≤ k)
    (hk : k ≤ selfMatch.candidateCount upper.rows)
    (hk' : k ≤ selfMatch.candidateCount (upper.append lower).rows) :
    ∃ found found', collect metric upper queries k selfMatch true = .ok found ∧
      collect metric (upper.append lower) queries' k selfMatch true = .ok found' ∧
      ∀ i < queries.rows, ∃ cs ds, Measured metric upper (queries.rowAt i) cs ∧
        Measured metric (upper.append lower) (queries.rowAt i) ds ∧
        ∀ slot < k, (selfMatch = .exclude → ¬Candidate.PushedOut cs ds i k slot) →
          found.NoFarther found' i slot := by
  have hstack := hupper.append hlower hcolumns
  obtain ⟨found, hfound, hshaped, hlists⟩ :=
    exists_collect hupper hqueries hwidth hmetric hpos hk true
  obtain ⟨found', hfound', hshaped', hlists'⟩ :=
    exists_collect hstack hqueries' hwidth' hmetric hpos hk' true
  refine ⟨found, found', hfound, hfound', ?_⟩
  intro i hi
  have hi' : i < queries'.rows := by omega
  obtain ⟨cs, hcs, hrow⟩ := hlists i hi
  obtain ⟨ds, hds, hrow'⟩ := hlists' i hi'
  rw [hsame i hi] at hds
  refine ⟨cs, ds, hcs, hds, ?_⟩
  intro slot hslot hcut
  -- All rows of the upper part are candidates in the stack, with the same indices.
  obtain ⟨added, hadded⟩ := exists_candidates hlower (hcolumns ▸ hmetric)
    ((Matrix.length_rowAt hqueries hi).trans (hwidth.trans hcolumns))
  have hsub : cs.Sublist ds := by
    rw [hds.unique (hcs.append hupper hlower hcolumns (measured_of_candidates? hlower hadded))]
    exact List.sublist_append_left cs _
  have hself : selfMatch = .exclude → ∃ c ∈ cs, c.index = i := by
    intro hexclude
    obtain ⟨point, d, -, -, hc⟩ := hcs.entry i (hi.trans_le (hown hexclude))
    exact ⟨_, List.mem_of_getElem? hc, rfl⟩
  have hc := List.getElem?_eq_getElem (l := Candidate.chosen selfMatch k i cs)
    (hslot.trans_eq (length_chosen hpos (hcs.length_eq ▸ hk) i).symm)
  have hd := List.getElem?_eq_getElem (l := Candidate.chosen selfMatch k i ds)
    (hslot.trans_eq (length_chosen hpos (hds.length_eq ▸ hk') i).symm)
  have hranked := (Candidate.chosen_sublist selfMatch k i cs).subset (List.mem_of_getElem? hc)
  have hranked' := (Candidate.chosen_sublist selfMatch k i ds).subset (List.mem_of_getElem? hd)
  exact hrow.noFarther hrow' hshaped hshaped' hi hi' hslot hc hd
    (hcs.valid.ranking.unsigned _ hranked) (hds.valid.ranking.unsigned _ hranked')
    (Candidate.getElem?_chosen_le hsub hds.valid hself hslot hcut hc hd)

/-- How a query is answered that is not refused. -/
theorem query_eq_collect {α : Type} [Element α] {e : Estimator} {s : FittedSet} {n : Option Nat}
    {x : Matrix α} (hs : e.fitted = some s) (hcolumns : x.columns = s.data.columns)
    (hn : n.getD e.config.neighbors = k) (hpos : 1 ≤ k) (hk : k ≤ s.data.rows)
    (hx : x.toFloat32 true = .ok x.narrowed) (withDistances : Bool) :
    (e.query x n withDistances).result
      = collect e.config.metric s.data x.narrowed k .include withDistances := by
  rw [query_result hs, if_neg (not_not.mpr hcolumns), resolveNeighbors_eq_ok e hn hpos hk, ok_bind,
    hx, ok_bind]

theorem toFloat32_of_query {α : Type} [Element α] {e : Estimator} {s : FittedSet} {n : Option Nat}
    {x : Matrix α} {withDistances : Bool} {found : Neighbors} (hs : e.fitted = some s)
    (h : (e.query x n withDistances).result = .ok found) :
    x.toFloat32 true = .ok x.narrowed := by
  rw [query_result hs] at h
  split_ifs at h
  rcases e.resolveNeighbors_cases n s.data.rows with ⟨err, hk, -⟩ | ⟨hk, -, -⟩
  · rw [hk, error_bind] at h
    cases h
  · rw [hk, ok_bind] at h
    cases hq : x.toFloat32 true with
    | error err =>
      rw [hq, error_bind] at h
      cases h
    | ok q => rw [Matrix.toFloat32_eq_ok hq]

theorem candidateCount_mono (selfMatch : SelfMatch) {m n : Nat} (h : m ≤ n) :
    selfMatch.candidateCount m ≤ selfMatch.candidateCount n := by
  match selfMatch with
  | .include => exact h
  | .exclude => exact Nat.sub_le_sub_right h 1

/-- `e'` is configured as `e` is, and its stored points are those of `e` and below them `more`. -/
structure Extends (e e' : Estimator) (stored more : Matrix Float32) : Prop where
  config : e'.config = e.config
  fitted : ∃ elementType, e.fitted = some ⟨stored, elementType⟩
  fitted' : ∃ elementType, e'.fitted = some ⟨stored.append more, elementType⟩

section Extends

variable {e e' : Estimator} {n : Option Nat} (h : e.Extends e' upper lower)
  (hupper : upper.WellFormed) (hlower : lower.WellFormed) (hcolumns : upper.columns = lower.columns)
  (hmetric : e.config.metric.Measures upper.columns) (hn : n.getD e.config.neighbors = k)
include h hupper hlower hcolumns hmetric hn

/-- With more points stored, no neighbor is farther. -/
theorem Extends.query {α : Type} [Element α] {x : Matrix α} (hx : x.WellFormed) {found : Neighbors}
    (hfound : (e.query x n true).result = .ok found) :
    ∃ found', (e'.query x n true).result = .ok found' ∧
      ∀ i < x.rows, ∀ slot < k, found.NoFarther found' i slot := by
  obtain ⟨hconfig, ⟨elementType, hs⟩, ⟨elementType', hs'⟩⟩ := h
  rcases query_cases hs x n with ⟨err, -, hrefused⟩ | ⟨hpos, hle, hwidth, -⟩
  · cases (hrefused true).symm.trans hfound
  rw [hn] at hpos hle
  have hq := toFloat32_of_query hs hfound
  have hle' : k ≤ SelfMatch.candidateCount .include (upper.append lower).rows :=
    hle.trans (candidateCount_mono _ (Nat.le_add_right _ _))
  obtain ⟨first, second, hfirst, hsecond, hrows⟩ :=
    collect_stack .include hupper hlower hcolumns hmetric hx.narrowed hx.narrowed
      hwidth hwidth le_rfl (fun _ _ => rfl) nofun hpos hle hle'
  rw [query_eq_collect hs hwidth hn hpos hle hq, hfirst] at hfound
  cases hfound
  refine ⟨second, ?_, ?_⟩
  · rw [query_eq_collect hs' hwidth (hconfig ▸ hn) hpos hle' hq, hconfig, hsecond]
  · intro i hi slot hslot
    obtain ⟨cs, ds, -, -, hslots⟩ := hrows i hi
    exact hslots slot hslot nofun

/-- With more points stored, no neighbor of a stored point is farther, where the point itself was
not pushed out. -/
theorem Extends.queryFitted {selfMatch : SelfMatch} {found : Neighbors}
    (hfound : (e.queryFitted n selfMatch true).result = .ok found) :
    ∃ found', (e'.queryFitted n selfMatch true).result = .ok found' ∧
      ∀ i < upper.rows, ∃ cs ds, Measured e.config.metric upper (upper.rowAt i) cs ∧
        Measured e.config.metric (upper.append lower) (upper.rowAt i) ds ∧
        ∀ slot < k, (selfMatch = .exclude → ¬Candidate.PushedOut cs ds i k slot) →
          found.NoFarther found' i slot := by
  obtain ⟨hconfig, ⟨elementType, hs⟩, ⟨elementType', hs'⟩⟩ := h
  rcases queryFitted_cases hs n selfMatch with ⟨err, -, hrefused⟩ | ⟨hpos, hle, hanswer⟩
  · cases (hrefused true).symm.trans hfound
  rw [hn] at hpos hle hanswer
  have hle' : k ≤ selfMatch.candidateCount (upper.append lower).rows :=
    hle.trans (candidateCount_mono _ (Nat.le_add_right _ _))
  obtain ⟨first, second, hfirst, hsecond, hrows⟩ :=
    collect_stack selfMatch hupper hlower hcolumns hmetric hupper
      (hupper.append hlower hcolumns) rfl rfl (Nat.le_add_right _ _)
      (fun i hi => Matrix.rowAt_append_left hupper hi) (fun _ => le_rfl) hpos hle hle'
  rw [hanswer, hfirst] at hfound
  cases hfound
  refine ⟨second, ?_, hrows⟩
  rw [queryFitted_result hs', resolveNeighbors_eq_ok e' (hconfig ▸ hn) hpos hle', ok_bind, hconfig,
    hsecond]

end Extends

/-- The nearest rows of a stack come of merging the nearest rows of its parts, those of the lower
part under their new indices. So further points take no neighbor farther away, except in the slots
of a stored point that asks for others and that they push out of the cut. -/
theorem shards_merge (S : Selection) (metric : Metric) (query : Point) (hupper : upper.WellFormed)
    (hlower : lower.WellFormed) (hcolumns : upper.columns = query.length)
    (hcolumns' : lower.columns = query.length) (hmetric : metric.Measures query.length) (k : Nat) :
    (∃ front back whole, S.nearestRows? metric upper k query = some front ∧
      S.nearestRows? metric lower k query = some back ∧
      S.nearestRows? metric (upper.append lower) k query = some whole ∧
      whole = (front.merge (back.map (Candidate.shift upper.rows)) Candidate.before).take k ∧
      ∀ (slot : Nat) (c d : Candidate), front[slot]? = some c → whole[slot]? = some d →
        c.distance.isNaN = true ∨ d.distance.isNaN = false ∧ d.distance ≤ c.distance) ∧
    ∀ {e e' : Estimator} {n : Option Nat}, e.Extends e' upper lower → e.config.metric = metric →
      n.getD e.config.neighbors = k →
      (∀ {α : Type} [Element α] (x : Matrix α) (found : Neighbors), x.WellFormed →
        (e.query x n true).result = .ok found →
        ∃ found', (e'.query x n true).result = .ok found' ∧
          ∀ i < x.rows, ∀ slot < k, found.NoFarther found' i slot) ∧
      ∀ (selfMatch : SelfMatch) (found : Neighbors),
        (e.queryFitted n selfMatch true).result = .ok found →
        ∃ found', (e'.queryFitted n selfMatch true).result = .ok found' ∧
          ∀ i < upper.rows, ∃ cs ds, Measured metric upper (upper.rowAt i) cs ∧
            Measured metric (upper.append lower) (upper.rowAt i) ds ∧
            ∀ slot < k, (selfMatch = .exclude → ¬Candidate.PushedOut cs ds i k slot) →
              found.NoFarther found' i slot := by
  have hsame : upper.columns = lower.columns := hcolumns.trans hcolumns'.symm
  refine ⟨S.nearestRows?_append hupper hlower hcolumns hcolumns' hmetric k, ?_⟩
  rintro e e' n h rfl hn
  have hmeasures : e.config.metric.Measures upper.columns := hcolumns ▸ hmetric
  exact ⟨fun x found hx hfound => h.query hupper hlower hsame hmeasures hn hx hfound,
    fun selfMatch found hfound => h.queryFitted hupper hlower hsame hmeasures hn hfound⟩

/-- One more point on the line. -/
def added : Matrix Float32 := ⟨1, 1, #[5]⟩

/-- An estimator that has stored the overlapping points and the added ones. -/
def ofExtended : Estimator := (({} : Estimator).fit (overlapping.append added) true).1

theorem extends_ofExtended :
    ofOverlapping.Extends ofExtended overlapping.narrowed added.narrowed := by
  refine ⟨rfl, ⟨.float32, rfl⟩, ⟨.float32, ?_⟩⟩
  rw [← Matrix.narrowed_append]
  rfl

theorem overlapping_shards_merge :
    (∃ front back whole,
      Selection.byRanking.nearestRows? (.minkowski 2) overlapping.narrowed 2 [5] = some front ∧
      Selection.byRanking.nearestRows? (.minkowski 2) added.narrowed 2 [5] = some back ∧
      Selection.byRanking.nearestRows? (.minkowski 2) (overlapping.narrowed.append added.narrowed) 2
        [5] = some whole ∧
      whole = (front.merge (back.map (Candidate.shift 4)) Candidate.before).take 2) ∧
    ∀ found, (ofOverlapping.queryFitted (some 2) .include true).result = .ok found →
      ∃ found', (ofExtended.queryFitted (some 2) .include true).result = .ok found' ∧
        ∀ i < 4, ∀ slot < 2, found.NoFarther found' i slot := by
  have hoverlapping : overlapping.narrowed.WellFormed := Matrix.WellFormed.narrowed rfl
  have hadded : added.narrowed.WellFormed := Matrix.WellFormed.narrowed rfl
  obtain ⟨⟨front, back, whole, hfront, hback, hwhole, hmerge, -⟩, hqueries⟩ :=
    shards_merge Selection.byRanking (.minkowski 2) [5] hoverlapping hadded rfl rfl nofun 2
  refine ⟨⟨front, back, whole, hfront, hback, hwhole, hmerge⟩, ?_⟩
  intro found hfound
  obtain ⟨found', hfound', hrows⟩ :=
    (hqueries (n := some 2) extends_ofExtended rfl rfl).2 .include found hfound
  refine ⟨found', hfound', ?_⟩
  intro i hi slot hslot
  obtain ⟨cs, ds, -, -, hslots⟩ := hrows i hi
  exact hslots slot hslot nofun

/-- Two points in the same direction, and a third one. -/
def aligned : Matrix Float32 := ⟨2, 2, #[1, 1, 3, 3]⟩

/-- One more point in the same direction. -/
def alignedToo : Matrix Float32 := ⟨1, 2, #[7, 7]⟩

/-- Seen from the first of three points in the same direction, rounding puts the point itself behind
both others. A cut at two candidates keeps it only as long as there is one other point. -/
theorem aligned_pushed_out :
    let fresh := ({} : Estimator).withMetric .cosine
    let e := (fresh.fit aligned true).1
    let e' := (fresh.fit (aligned.append alignedToo) true).1
    e.Reachable ∧ e'.Reachable ∧ e.Extends e' aligned.narrowed alignedToo.narrowed ∧
    ∃ d d' : Float32,
      (e.queryFitted (some 1) .exclude true).result.map (·.distances.bind (·.get? 0 0))
        = .ok (some d) ∧
      (e'.queryFitted (some 1) .exclude true).result.map (·.distances.bind (·.get? 0 0))
        = .ok (some d') ∧ d < d' := by
  have hboth : (aligned.append alignedToo).WellFormed := Matrix.WellFormed.append rfl rfl rfl
  refine ⟨.fit (.withMetric .new _) aligned rfl true, .fit (.withMetric .new _) _ hboth true,
    ⟨rfl, ⟨.float32, rfl⟩, ⟨.float32, ?_⟩⟩, 0, Float32.ofBits 0x25000000, ?_, ?_, ?_⟩
  · rw [← Matrix.narrowed_append]
    rfl
  · decide +kernel
  · decide +kernel
  · decide +kernel

end Estimator

end NeighborSearch
