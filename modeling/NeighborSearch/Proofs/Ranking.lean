import NeighborSearch.Proofs.Format
import NeighborSearch.Ranking

/-!
# The ranking of candidates

Ranking is a linear order on candidates, so the candidates of a query point have exactly one
ranking and its first `k` members are determined. On distances, which carry no minus sign, the
order is the numerical one with NaN last and ties broken by index: `precedes_iff_lt`.
-/

namespace NeighborSearch

/-! ## Keys of numbers -/

/-- Different numbers have different keys. -/
theorem orderKey_injective {x y : Float} (h : orderKey x = orderKey y) : x = y := by
  rw [← Float.toBits_inj, ← UInt64.toNat_inj]
  simp only [orderKey, leastSigned] at h
  split_ifs at h <;> omega

/-- A number is never below zero, nor negative zero. NaN may carry any sign. -/
def Unsigned (x : Float) : Prop := x.isNaN = false → x.toBits.toNat < 2 ^ 63

theorem Unsigned.orderKey_eq {x : Float} (h : Unsigned x) (hx : x.isNaN = false) :
    orderKey x = place64 x := by
  have hbits := h hx
  rw [place64_eq hx, if_pos hbits, orderKey]
  exact if_pos hbits

theorem Unsigned.place_nonneg {x : Float} (h : Unsigned x) (hx : x.isNaN = false) :
    0 ≤ place64 x := by
  have hbits := h hx
  rw [place64_eq hx, if_pos hbits]
  omega

theorem Unsigned.nonneg {x : Float} (h : Unsigned x) (hx : x.isNaN = false) : 0 ≤ x :=
  (nonneg_iff_place64 hx).mpr (h.place_nonneg hx)

theorem unsigned_nonnegative (d : Float) : Unsigned (Metric.nonnegative d) := by
  intro hnan
  unfold Metric.nonnegative at hnan ⊢
  split_ifs at hnan ⊢ with hle
  · decide
  · by_contra hsign
    rw [le_iff_place64 hnan isNaN_zero, place64_zero, place64_eq hnan, if_neg hsign] at hle
    omega

theorem eq_of_isNaN {x y : Float} (hx : x.isNaN = true) (hy : y.isNaN = true) : x = y := by
  rw [Float.isNaN_eq_decide_eq_nan, decide_eq_true_iff] at hx hy
  rw [hx, hy]

theorem beq_eq_false_of_isNaN {x y : Float} (hx : x.isNaN = true) : (x == y) = false := by
  rw [Float.isNaN_eq_decide_eq_nan, decide_eq_true_iff] at hx
  rw [hx, Float.nan_beq_eq_false]

namespace Candidate

/-! ## The order of candidates -/

/-- What candidates are compared by: whether the distance is NaN, the distance, and the index. -/
def rankKey (c : Candidate) : Bool ×ₗ ℤ ×ₗ ℕ :=
  toLex (c.distance.isNaN,
    toLex (if c.distance.isNaN then 0 else orderKey c.distance, c.index))

theorem rankKey_injective : Function.Injective rankKey := by
  intro a b h
  obtain ⟨d, i⟩ := a
  obtain ⟨d', i'⟩ := b
  simp only [rankKey, toLex_inj, Prod.mk.injEq] at h
  obtain ⟨hnan, hkey, hindex⟩ := h
  cases hd : d.isNaN with
  | true => rw [eq_of_isNaN hd (hnan ▸ hd), hindex]
  | false =>
    have hd' : d'.isNaN = false := hnan ▸ hd
    simp only [hd, hd', Bool.false_eq_true, if_false] at hkey
    rw [orderKey_injective hkey, hindex]

/-- Candidates are ranked by their keys. -/
theorem rank_eq_compare (a b : Candidate) : rank a b = compare a.rankKey b.rankKey := by
  simp only [rank, rankKey, Prod.Lex.compare_def, compareLex, compareOn, ofLex_toLex,
    compareDistance]
  cases a.distance.isNaN <;> cases b.distance.isNaN <;> rfl

theorem before_iff (a b : Candidate) : a.before b = true ↔ a.rankKey ≤ b.rankKey := by
  rw [before, rank_eq_compare, ← Ordering.ne_gt_iff_isLE]
  exact compare_le_iff_le

theorem rank_eq_lt_iff (a b : Candidate) : rank a b = .lt ↔ a.rankKey < b.rankKey := by
  rw [rank_eq_compare, compare_lt_iff_lt]

instance : LinearOrder Candidate where
  le a b := a.before b = true
  lt a b := rank a b = .lt
  le_refl a := (before_iff a a).mpr le_rfl
  le_trans a b c hab hbc :=
    (before_iff a c).mpr (((before_iff a b).mp hab).trans ((before_iff b c).mp hbc))
  le_antisymm a b hab hba :=
    rankKey_injective (((before_iff a b).mp hab).antisymm ((before_iff b a).mp hba))
  le_total a b := by
    rw [before_iff, before_iff]
    exact le_total a.rankKey b.rankKey
  lt_iff_le_not_ge a b := by
    rw [before_iff, before_iff, rank_eq_lt_iff]
    exact lt_iff_le_not_ge
  toDecidableLE a b := inferInstanceAs (Decidable (a.before b = true))
  toDecidableEq := inferInstance

theorem le_iff_before {a b : Candidate} : a ≤ b ↔ a.before b = true := Iff.rfl

theorem lt_iff_rank {a b : Candidate} : a < b ↔ rank a b = .lt := Iff.rfl

/-! ## The order in which neighbors are listed -/

/-- Numbers come before NaN and smaller numbers before larger ones; what is equally far away is
listed by index. -/
def Precedes (a b : Candidate) : Prop :=
  (a.distance.isNaN = false ∧ b.distance.isNaN = true) ∨ a.distance < b.distance ∨
    (a.distance == b.distance ∨ a.distance.isNaN = true ∧ b.distance.isNaN = true) ∧
      a.index < b.index

/-- On distances, the ranking is the order by number, then by index. -/
theorem precedes_iff_lt {a b : Candidate} (ha : Unsigned a.distance) (hb : Unsigned b.distance) :
    a.Precedes b ↔ a < b := by
  rw [lt_iff_rank, rank, compareDistance, Precedes]
  cases hna : a.distance.isNaN with
  | false =>
    cases hnb : b.distance.isNaN with
    | false =>
      rw [lt_iff_place64 hna hnb, beq_iff_place64 hna hnb, ha.orderKey_eq hna, hb.orderKey_eq hnb]
      rw [Ordering.then_eq_lt, compare_lt_iff_lt, compare_lt_iff_lt, compare_eq_iff_eq]
      simp
    | true => simp
  | true =>
    have hlt : ¬a.distance < b.distance := not_lt_of_isNaN hna
    cases hnb : b.distance.isNaN with
    | false =>
      simp [hlt, beq_eq_false_of_isNaN hna]
    | true => simp [hlt, compare_lt_iff_lt]

/-! ## Sorting -/

theorem insertRanked_eq (c : Candidate) (cs : List Candidate) :
    insertRanked c cs = cs.orderedInsert (· ≤ ·) c := by
  induction cs with
  | nil => rfl
  | cons d ds ih => simp only [insertRanked, List.orderedInsert, le_iff_before, ih]

/-- The ranking is the library's insertion sort. -/
theorem ranking_eq (cs : List Candidate) : ranking cs = cs.insertionSort (· ≤ ·) := by
  induction cs with
  | nil => rfl
  | cons c cs ih =>
    rw [List.insertionSort_cons, ← ih, ← insertRanked_eq]
    rfl

theorem ranking_perm (cs : List Candidate) : (ranking cs).Perm cs := by
  rw [ranking_eq]
  exact List.perm_insertionSort _ cs

theorem pairwise_ranking (cs : List Candidate) : (ranking cs).Pairwise (· ≤ ·) := by
  rw [ranking_eq]
  exact List.pairwise_insertionSort _ cs

@[simp]
theorem length_ranking (cs : List Candidate) : (ranking cs).length = cs.length :=
  (ranking_perm cs).length_eq

@[simp]
theorem mem_ranking {c : Candidate} {cs : List Candidate} : c ∈ ranking cs ↔ c ∈ cs :=
  (ranking_perm cs).mem_iff

/-- There is only one way to put candidates in order. -/
theorem eq_ranking {cs sorted : List Candidate} (hperm : sorted.Perm cs)
    (hsorted : sorted.Pairwise (· ≤ ·)) : sorted = ranking cs :=
  (hperm.trans (ranking_perm cs).symm).eq_of_pairwise
    (fun _ _ _ _ hab hba => le_antisymm hab hba) hsorted (pairwise_ranking cs)

/-- Leaving out candidates commutes with ranking. -/
theorem ranking_filter (keep : Candidate → Bool) (cs : List Candidate) :
    ranking (cs.filter keep) = (ranking cs).filter keep :=
  (eq_ranking ((ranking_perm cs).filter keep) ((pairwise_ranking cs).filter keep)).symm

/-- Candidates in order that rank before all the others begin the ranking. -/
theorem eq_take_ranking {cs row rest : List Candidate} (hperm : (row ++ rest).Perm cs)
    (hrow : row.Pairwise (· ≤ ·)) (hcut : ∀ a ∈ row, ∀ b ∈ rest, a ≤ b) :
    row = (ranking cs).take row.length := by
  have hsorted : (row ++ ranking rest).Pairwise (· ≤ ·) := by
    rw [List.pairwise_append]
    refine ⟨hrow, pairwise_ranking rest, fun a ha b hb => hcut a ha b (mem_ranking.mp hb)⟩
  rw [← eq_ranking (((ranking_perm rest).append_left row).trans hperm) hsorted]
  exact List.take_left.symm

/-! ## The distances of a ranking -/

/-- What candidates are compared by before their indices decide. -/
def distanceKey (d : Float) : Bool ×ₗ ℤ :=
  toLex (d.isNaN, if d.isNaN then 0 else orderKey d)

theorem distanceKey_of_isNaN {d : Float} (h : d.isNaN = true) : distanceKey d = toLex (true, 0) := by
  rw [distanceKey, h]
  rfl

theorem distanceKey_of_unsigned {d : Float} (h : Unsigned d) (hd : d.isNaN = false) :
    distanceKey d = toLex (false, place64 d) := by
  rw [distanceKey, hd, ← h.orderKey_eq hd]
  rfl

theorem distanceKey_injective : Function.Injective distanceKey := by
  intro x y h
  simp only [distanceKey, toLex_inj, Prod.mk.injEq] at h
  obtain ⟨hnan, hkey⟩ := h
  cases hx : x.isNaN with
  | true => exact eq_of_isNaN hx (hnan ▸ hx)
  | false =>
    have hy : y.isNaN = false := hnan ▸ hx
    simp only [hx, hy, Bool.false_eq_true, if_false] at hkey
    exact orderKey_injective hkey

theorem distanceKey_le {a b : Candidate} (h : a ≤ b) :
    distanceKey a.distance ≤ distanceKey b.distance := by
  rw [le_iff_before, before_iff] at h
  simp only [rankKey, distanceKey, Prod.Lex.toLex_le_toLex] at h ⊢
  rcases h with hnan | ⟨hnan, hkey | ⟨hkey, -⟩⟩
  · exact Or.inl hnan
  · exact Or.inr ⟨hnan, hkey.le⟩
  · exact Or.inr ⟨hnan, hkey.le⟩

theorem distance_eq_of_le {a b : Candidate} (hab : a ≤ b)
    (hba : distanceKey b.distance ≤ distanceKey a.distance) : a.distance = b.distance :=
  distanceKey_injective (le_antisymm (distanceKey_le hab) hba)

/-- A function that keeps the order of distances may be applied before ranking or afterwards. -/
theorem map_distance_ranking_of_mono {f : Float → Float} {cs ds : List Candidate}
    (hmono : ∀ c ∈ cs, ∀ d ∈ cs, distanceKey c.distance ≤ distanceKey d.distance →
      distanceKey (f c.distance) ≤ distanceKey (f d.distance))
    (h : (ds.map distance).Perm (cs.map fun c => f c.distance)) :
    (ranking ds).map distance = (ranking cs).map fun c => f c.distance := by
  have hds : ((ranking ds).map distance).Pairwise fun x y => distanceKey x ≤ distanceKey y :=
    List.pairwise_map.mpr ((pairwise_ranking ds).imp distanceKey_le)
  have hcs : ((ranking cs).map fun c => f c.distance).Pairwise
      fun x y => distanceKey x ≤ distanceKey y :=
    List.pairwise_map.mpr ((pairwise_ranking cs).imp_of_mem fun hc hd hcd =>
      hmono _ (mem_ranking.mp hc) _ (mem_ranking.mp hd) (distanceKey_le hcd))
  have hperm : ((ranking ds).map distance).Perm ((ranking cs).map fun c => f c.distance) :=
    ((ranking_perm ds).map distance).trans (h.trans ((ranking_perm cs).map _).symm)
  exact hperm.eq_of_pairwise
    (fun _ _ _ _ hxy hyx => distanceKey_injective (le_antisymm hxy hyx)) hds hcs

/-- Indices have no part in which distances a ranking lists, and in which order. -/
theorem map_distance_ranking {cs ds : List Candidate}
    (h : (cs.map distance).Perm (ds.map distance)) :
    (ranking cs).map distance = (ranking ds).map distance :=
  map_distance_ranking_of_mono (f := id) (fun _ _ _ _ hcd => hcd) h

/-- Equal distances are reported alike. -/
theorem map_narrow_eq {cs ds : List Candidate} (h : cs.map distance = ds.map distance) :
    (cs.map fun c => narrow c.distance) = ds.map fun c => narrow c.distance := by
  have hnarrow := congrArg (List.map narrow) h
  rw [List.map_map, List.map_map] at hnarrow
  exact hnarrow

end Candidate

end NeighborSearch
