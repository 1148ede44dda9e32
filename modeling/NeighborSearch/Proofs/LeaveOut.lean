import NeighborSearch.Proofs.Selection

/-!
# Leaving a point out

One more candidate than asked for is taken and then dropped: the point itself if it is there, else
the first candidate. The first way gives the leading candidates among all other points. The second
gives those that come after the first one. Lists of different lengths nest unless they were made in
different ways.
-/

namespace NeighborSearch

namespace Candidate

/-- Whether the stored point `i` is one of the first `k` of the ranking. -/
def RanksWithin (cs : List Candidate) (i k : Nat) : Prop :=
  ∃ c ∈ (ranking cs).take k, c.index = i

instance (cs : List Candidate) (i k : Nat) : Decidable (RanksWithin cs i k) :=
  inferInstanceAs (Decidable (∃ c ∈ (ranking cs).take k, c.index = i))

theorem RanksWithin.mono {cs : List Candidate} {i k k' : Nat} (h : RanksWithin cs i k)
    (hk : k ≤ k') : RanksWithin cs i k' := by
  obtain ⟨c, hc, hi⟩ := h
  exact ⟨c, (List.take_sublist_take_left hk).subset hc, hi⟩

/-- Who makes a cut makes the later ones, so there is only one way to differ. -/
theorem RanksWithin.of_not_iff {cs : List Candidate} {i k k' : Nat} (hk : k ≤ k')
    (h : ¬(RanksWithin cs i k ↔ RanksWithin cs i k')) :
    ¬RanksWithin cs i k ∧ RanksWithin cs i k' := by
  by_cases hown : RanksWithin cs i k
  · exact absurd (iff_of_true hown (hown.mono hk)) h
  · exact ⟨hown, by_contra fun hout => h (iff_of_false hown hout)⟩

/-! ## The two ways of leaving out -/

theorem eraseP_eq_filter {i : Nat} {row : List Candidate} (hdistinct : (row.map index).Nodup) :
    row.eraseP (·.index == i) = row.filter (·.index ≠ i) := by
  induction row with
  | nil => rfl
  | cons c row ih =>
    rw [List.map_cons, List.nodup_cons] at hdistinct
    by_cases hc : c.index = i
    · have hrest : ∀ d ∈ row, decide (d.index ≠ i) = true := by
        intro d hd
        rw [decide_eq_true_iff]
        intro hdi
        exact hdistinct.1 (List.mem_map.mpr ⟨d, hd, hdi.trans hc.symm⟩)
      rw [List.eraseP_cons_of_pos (by simpa using hc), List.filter_cons_of_neg (by simpa using hc),
        List.filter_eq_self.mpr hrest]
    · rw [List.eraseP_cons_of_neg (by simpa using hc), List.filter_cons_of_pos (by simpa using hc),
        ih hdistinct.2]

theorem leaveOut_of_mem {i : Nat} {row : List Candidate} (hdistinct : (row.map index).Nodup)
    (hmem : ∃ c ∈ row, c.index = i) : leaveOut i row = row.filter (·.index ≠ i) := by
  rw [leaveOut, if_pos (by simpa using hmem), eraseP_eq_filter hdistinct]

/-- If the point is not listed, the first candidate is left out instead. -/
theorem leaveOut_of_not_mem {i : Nat} {row : List Candidate} (hmem : ¬∃ c ∈ row, c.index = i) :
    leaveOut i row = row.drop 1 := by
  rw [leaveOut, if_neg (by simpa using hmem)]

/-- Leaving out always takes one candidate away. -/
theorem length_leaveOut (i : Nat) (row : List Candidate) :
    (leaveOut i row).length = row.length - 1 := by
  unfold leaveOut
  split_ifs with hmem
  · rw [List.length_eraseP, if_pos hmem]
  · rw [List.length_drop]

variable {cs : List Candidate} {i k k' : Nat}

theorem length_take_ranking (hk : k ≤ cs.length) : ((ranking cs).take k).length = k := by
  rw [List.length_take, length_ranking]
  omega

/-- A point that made the cut is left out of the whole ranking. -/
theorem leaveOut_of_ranksWithin (h : Valid cs) (hk : k < cs.length)
    (hown : RanksWithin cs i (k + 1)) :
    leaveOut i ((ranking cs).take (k + 1)) = (ranking (cs.filter (·.index ≠ i))).take k := by
  have hdistinct := (h.ranking.sublist (List.take_sublist (k + 1) _)).distinct
  have hlength : (((ranking cs).take (k + 1)).filter (·.index ≠ i)).length = k := by
    rw [← leaveOut_of_mem hdistinct hown, length_leaveOut, length_take_ranking hk]
    omega
  have hsplit : (ranking cs).filter (·.index ≠ i) = ((ranking cs).take (k + 1)).filter (·.index ≠ i)
      ++ ((ranking cs).drop (k + 1)).filter (·.index ≠ i) := by
    rw [← List.filter_append, List.take_append_drop]
  rw [leaveOut_of_mem hdistinct hown, ranking_filter, hsplit, List.take_left' hlength]

/-- If the point ranks too far down, the others are listed from the second one on. -/
theorem leaveOut_of_not_ranksWithin (hown : ¬RanksWithin cs i (k + 1)) :
    leaveOut i ((ranking cs).take (k + 1)) = ((ranking cs).drop 1).take k := by
  rw [leaveOut_of_not_mem hown, List.drop_take, Nat.add_sub_cancel]

theorem length_filter_index (h : Valid cs) (hown : ∃ c ∈ cs, c.index = i) :
    (cs.filter (·.index ≠ i)).length = cs.length - 1 := by
  rw [← leaveOut_of_mem h.distinct hown, length_leaveOut]

theorem RanksWithin.exists_mem (hown : RanksWithin cs i k) : ∃ c ∈ cs, c.index = i := by
  obtain ⟨c, hc, hi⟩ := hown
  exact ⟨c, mem_ranking.mp (List.mem_of_mem_take hc), hi⟩

/-- Leaving out a point that made the cut gives the leading candidates among the others. -/
theorem leading_leaveOut (h : Valid cs) (hk : k < cs.length) (hown : RanksWithin cs i (k + 1)) :
    Leading k (cs.filter (·.index ≠ i)) (leaveOut i ((ranking cs).take (k + 1))) := by
  rw [leaveOut_of_ranksWithin h hk hown]
  refine leading_take_ranking (h.sublist List.filter_sublist) ?_
  rw [length_filter_index h hown.exists_mem]
  omega

/-! ## What is always true of the candidates left -/

theorem leaveOut_sublist (i : Nat) (row : List Candidate) : (leaveOut i row).Sublist row := by
  unfold leaveOut
  split_ifs with hmem
  · exact List.eraseP_sublist
  · exact List.drop_sublist 1 row

theorem index_ne_of_mem_leaveOut {row : List Candidate} (hdistinct : (row.map index).Nodup)
    {c : Candidate} (hc : c ∈ leaveOut i row) : c.index ≠ i := by
  by_cases hown : ∃ c ∈ row, c.index = i
  · rw [leaveOut_of_mem hdistinct hown, List.mem_filter, decide_eq_true_iff] at hc
    exact hc.2
  · intro hi
    exact hown ⟨c, (leaveOut_sublist i row).subset hc, hi⟩

/-! ## Nesting -/

/-- Lists made in the same way nest. -/
theorem leaveOut_nests (h : Valid cs) (hk : k ≤ k') (hk' : k' < cs.length)
    (hsame : RanksWithin cs i (k + 1) ↔ RanksWithin cs i (k' + 1)) :
    leaveOut i ((ranking cs).take (k + 1)) <+: leaveOut i ((ranking cs).take (k' + 1)) := by
  by_cases hown : RanksWithin cs i (k + 1)
  · rw [leaveOut_of_ranksWithin h (by omega) hown,
      leaveOut_of_ranksWithin h hk' (hsame.mp hown)]
    exact List.take_prefix_take_left hk
  · rw [leaveOut_of_not_ranksWithin hown, leaveOut_of_not_ranksWithin (mt hsame.mpr hown)]
    exact List.take_prefix_take_left hk

/-- Without the point itself in the shorter cut, the first candidate is what was dropped. -/
theorem cons_leaveOut {top : Candidate} {rest : List Candidate} (hranking : ranking cs = top :: rest)
    (hout : ¬RanksWithin cs i (k + 1)) :
    top :: leaveOut i ((ranking cs).take (k + 1)) = (ranking cs).take (k + 1) := by
  rw [leaveOut_of_not_ranksWithin hout, hranking]
  rfl

/-- A point that makes only the later cut leaves the first candidate in the longer list. -/
theorem cons_leaveOut_nests {top : Candidate} {rest : List Candidate} (h : Valid cs)
    (hranking : ranking cs = top :: rest) (hk : k ≤ k') (hout : ¬RanksWithin cs i (k + 1))
    (hin : RanksWithin cs i (k' + 1)) :
    top :: leaveOut i ((ranking cs).take (k + 1))
      <+: leaveOut i ((ranking cs).take (k' + 1)) := by
  have hdistinct := (h.ranking.sublist (List.take_sublist (k' + 1) _)).distinct
  have hkept : ((ranking cs).take (k + 1)).filter (·.index ≠ i) = (ranking cs).take (k + 1) := by
    refine List.filter_eq_self.mpr ?_
    intro c hc
    rw [decide_eq_true_iff]
    intro hi
    exact hout ⟨c, hc, hi⟩
  have hcuts : (ranking cs).take (k + 1) <+: (ranking cs).take (k' + 1) :=
    List.take_prefix_take_left (by omega)
  rw [cons_leaveOut hranking hout, leaveOut_of_mem hdistinct hin, ← hkept]
  exact hcuts.filter _

/-- Such lists do not nest. -/
theorem leaveOut_not_nests {top : Candidate} {rest : List Candidate} (h : Valid cs)
    (hranking : ranking cs = top :: rest) (hpos : 0 < k) (hk : k ≤ k') (hk' : k' < cs.length)
    (hout : ¬RanksWithin cs i (k + 1)) (hin : RanksWithin cs i (k' + 1)) :
    ¬(leaveOut i ((ranking cs).take (k + 1))).map index
      <+: (leaveOut i ((ranking cs).take (k' + 1))).map index := by
  intro hnests
  have hlonger := (cons_leaveOut_nests h hranking hk hout hin).map index
  have hdistinct := (h.ranking.sublist (List.take_sublist (k + 1) _)).distinct
  rw [← cons_leaveOut hranking hout] at hdistinct
  have hlength : (leaveOut i ((ranking cs).take (k + 1))).length = k := by
    rw [length_leaveOut, length_take_ranking (by omega)]
    omega
  -- Both lists start the longer one, so the shorter of them starts with the dropped candidate.
  have hshift := List.prefix_of_prefix_length_le hnests hlonger (by simp)
  cases hrow : leaveOut i ((ranking cs).take (k + 1)) with
  | nil =>
    rw [hrow, List.length_nil] at hlength
    omega
  | cons second row =>
    rw [hrow] at hshift hdistinct
    simp only [List.map_cons, List.cons_prefix_cons] at hshift
    simp [hshift.1] at hdistinct

end Candidate

end NeighborSearch
