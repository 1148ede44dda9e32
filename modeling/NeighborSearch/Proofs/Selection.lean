import NeighborSearch.Proofs.Ranking

/-!
# Selecting the first candidates

The first candidates of a ranking are described without the ranking (`Leading`), and they are what
comes out of selecting around a position, cutting there and sorting, no matter how the selection
and the sort go about it: `Selection.nearest_eq`.
-/

namespace NeighborSearch

namespace Candidate

/-- What a list of candidates has when each of them stands for another stored point. -/
structure Valid (cs : List Candidate) : Prop where
  unsigned : ∀ c ∈ cs, Unsigned c.distance
  distinct : (cs.map index).Nodup

theorem Valid.nodup {cs : List Candidate} (h : Valid cs) : cs.Nodup :=
  h.distinct.of_map index

theorem Valid.sublist {cs ds : List Candidate} (h : Valid cs) (hsub : ds.Sublist cs) : Valid ds :=
  ⟨fun c hc => h.unsigned c (hsub.subset hc), h.distinct.sublist (hsub.map index)⟩

theorem Valid.ranking {cs : List Candidate} (h : Valid cs) : Valid (ranking cs) :=
  ⟨fun c hc => h.unsigned c (mem_ranking.mp hc),
    ((ranking_perm cs).map index).nodup_iff.mpr h.distinct⟩

/-! ## The leading candidates -/

/-- `row` lists in order the `k` candidates among `cs` that come before all others. -/
structure Leading (k : Nat) (cs row : List Candidate) : Prop where
  length_eq : row.length = k
  subset : row ⊆ cs
  ordered : row.Pairwise Precedes
  first : ∀ c ∈ cs, c ∉ row → ∀ d ∈ row, d.Precedes c

theorem pairwise_lt_ranking {cs : List Candidate} (h : Valid cs) :
    (ranking cs).Pairwise (· < ·) := by
  have hnodup : (ranking cs).Pairwise (· ≠ ·) := h.ranking.nodup
  exact ((pairwise_ranking cs).and hnodup).imp fun hab => lt_of_le_of_ne hab.1 hab.2

/-- Among valid candidates, the ranking is the order by distance, then by index. -/
theorem Valid.pairwise_precedes {cs : List Candidate} (h : Valid cs)
    (hlt : cs.Pairwise (· < ·)) : cs.Pairwise Precedes :=
  hlt.imp_of_mem fun ha hb hab => (precedes_iff_lt (h.unsigned _ ha) (h.unsigned _ hb)).mpr hab

/-- The first candidates in the ranking lead all others. -/
theorem leading_take_ranking {cs : List Candidate} (h : Valid cs) {k : Nat} (hk : k ≤ cs.length) :
    Leading k cs ((ranking cs).take k) := by
  have hlt := pairwise_lt_ranking h
  refine ⟨?_, ?_, ?_, ?_⟩
  · rw [List.length_take, length_ranking]
    omega
  · intro c hc
    exact mem_ranking.mp (List.mem_of_mem_take hc)
  · exact (h.ranking.pairwise_precedes hlt).sublist (List.take_sublist k _)
  · intro c hc hout d hd
    have hrest : c ∈ (ranking cs).drop k := by
      have hin : c ∈ (ranking cs).take k ++ (ranking cs).drop k := by
        rw [List.take_append_drop]
        exact mem_ranking.mpr hc
      exact (List.mem_append.mp hin).resolve_left hout
    rw [← List.take_append_drop k (ranking cs)] at hlt
    have hdc : d < c := (List.pairwise_append.mp hlt).2.2 d hd c hrest
    have hdcs : d ∈ cs := mem_ranking.mp (List.mem_of_mem_take hd)
    exact (precedes_iff_lt (h.unsigned d hdcs) (h.unsigned c hc)).mpr hdc

/-- The leading candidates are determined, and so is their order. -/
theorem Leading.eq {k : Nat} {cs row : List Candidate} (hrow : Leading k cs row)
    (h : Valid cs) : row = (ranking cs).take k := by
  have hlt : row.Pairwise (· < ·) := hrow.ordered.imp_of_mem fun ha hb hab =>
    (precedes_iff_lt (h.unsigned _ (hrow.subset ha)) (h.unsigned _ (hrow.subset hb))).mp hab
  have hnodup : row.Nodup := hlt.imp ne_of_lt
  have hperm : (row ++ cs.filter (· ∉ row)).Perm cs := by
    refine (List.perm_ext_iff_of_nodup ?_ h.nodup).mpr ?_
    · refine List.nodup_append.mpr ⟨hnodup, h.nodup.filter _, ?_⟩
      rintro a ha b hb rfl
      simp [ha] at hb
    · intro c
      by_cases hc : c ∈ row
      · simp [hc, hrow.subset hc]
      · simp [hc]
  rw [← hrow.length_eq]
  refine Candidate.eq_take_ranking hperm (hlt.imp le_of_lt) ?_
  intro a ha b hb
  simp only [List.mem_filter, decide_eq_true_eq] at hb
  have hab := hrow.first b hb.1 hb.2 a ha
  exact ((precedes_iff_lt (h.unsigned a (hrow.subset ha)) (h.unsigned b hb.1)).mp hab).le

end Candidate

/-! ## Selecting and sorting -/

/-- A way to select and a way to sort, of which only this is known: both rearrange; selecting
around a position puts an item there with none after it in order before and none before it in order
after; sorting leaves the items in order. -/
structure Selection where
  select : Nat → List Candidate → List Candidate
  sort : List Candidate → List Candidate
  select_perm : ∀ n cs, (select n cs).Perm cs
  select_before : ∀ n cs pivot, (select n cs)[n]? = some pivot →
    ∀ c ∈ (select n cs).take n, c.before pivot
  select_after : ∀ n cs pivot, (select n cs)[n]? = some pivot →
    ∀ c ∈ (select n cs).drop (n + 1), pivot.before c
  sort_perm : ∀ cs, (sort cs).Perm cs
  sort_ordered : ∀ cs, (sort cs).Pairwise fun a b => a.before b

namespace Selection

/-- The first `k` candidates in order: those beyond position `k` are cut off before sorting. -/
def nearest (S : Selection) (k : Nat) (cs : List Candidate) : List Candidate :=
  if k = 0 then []
  else if k < cs.length then S.sort ((S.select (k - 1) cs).take k)
  else S.sort cs

/-- Every way to sort gives the ranking, for there are no ties. -/
theorem sort_eq (S : Selection) (cs : List Candidate) : S.sort cs = Candidate.ranking cs :=
  Candidate.eq_ranking (S.sort_perm cs) (S.sort_ordered cs)

/-- Selecting around position `k` splits the candidates at `k + 1`. -/
theorem select_cut (S : Selection) {k : Nat} {cs : List Candidate} (hk : k < cs.length) :
    ∀ a ∈ (S.select k cs).take (k + 1), ∀ b ∈ (S.select k cs).drop (k + 1), a ≤ b := by
  have hk : k < (S.select k cs).length := by rwa [(S.select_perm k cs).length_eq]
  have hpivot : (S.select k cs)[k]? = some (S.select k cs)[k] := List.getElem?_eq_getElem hk
  intro a ha b hb
  have hafter : (S.select k cs)[k] ≤ b := S.select_after k cs _ hpivot b hb
  rw [List.take_succ_eq_append_getElem hk, List.mem_append, List.mem_singleton] at ha
  rcases ha with ha | rfl
  · exact le_trans (S.select_before k cs _ hpivot a ha) hafter
  · exact hafter

/-- Whatever the selection, the first `k` members of the ranking come out. -/
theorem nearest_eq (S : Selection) (k : Nat) (cs : List Candidate) :
    S.nearest k cs = (Candidate.ranking cs).take k := by
  unfold nearest
  split_ifs with hzero hcut
  · rw [hzero, List.take_zero]
  · obtain ⟨k, rfl⟩ : ∃ j, k = j + 1 := ⟨k - 1, by omega⟩
    rw [Nat.add_sub_cancel]
    set row := (S.select k cs).take (k + 1) with hrow
    have hlength : row.length = k + 1 := by
      rw [hrow, List.length_take, (S.select_perm k cs).length_eq]
      omega
    have hperm : (S.sort row ++ (S.select k cs).drop (k + 1)).Perm cs := by
      refine ((S.sort_perm row).append_right _).trans ?_
      rw [hrow, List.take_append_drop]
      exact S.select_perm k cs
    have heq := Candidate.eq_take_ranking hperm (S.sort_ordered row) fun a ha b hb =>
      S.select_cut (by omega) a ((S.sort_perm row).mem_iff.mp ha) b hb
    rw [heq, (S.sort_perm row).length_eq, hlength]
  · rw [S.sort_eq, List.take_of_length_le]
    rw [Candidate.length_ranking]
    omega

/-- Selecting by ranking everything. -/
def byRanking : Selection where
  select _ cs := Candidate.ranking cs
  sort := Candidate.ranking
  select_perm _ cs := Candidate.ranking_perm cs
  select_before n cs pivot hpivot c hc := by
    obtain ⟨hn, rfl⟩ := List.getElem?_eq_some_iff.mp hpivot
    obtain ⟨i, hi, rfl⟩ := List.mem_take_iff_getElem.mp hc
    exact List.pairwise_iff_getElem.mp (Candidate.pairwise_ranking cs) i n _ hn (by omega)
  select_after n cs pivot hpivot c hc := by
    obtain ⟨hn, rfl⟩ := List.getElem?_eq_some_iff.mp hpivot
    obtain ⟨i, hi, rfl⟩ := List.mem_drop_iff_getElem.mp hc
    exact List.pairwise_iff_getElem.mp (Candidate.pairwise_ranking cs) n (n + 1 + i) hn (by omega)
      (by omega)
  sort_perm := Candidate.ranking_perm
  sort_ordered := Candidate.pairwise_ranking

instance : Inhabited Selection := ⟨byRanking⟩

end Selection

end NeighborSearch
