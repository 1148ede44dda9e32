import NeighborSearch.Proofs.Arithmetic
import NeighborSearch.Proofs.Search

/-!
# Comparing candidates

Candidates come as the bits of a binary64 number and an index. Whatever the bits are, the comparison
by which candidates are ranked is a total order, in which two candidates are equal only if their
indices are, and their distances are both NaN or have the same bits: `rank_total_order`. Among
distances it is the numerical order with NaN last, so candidates with different indices never
compare equal.
-/

namespace NeighborSearch

open Float.Model (Format UnpackedFloat)
open Float.Model.UnpackedFloat

/-! ## Bit patterns -/

/-- The exponent has all its bits set and the significand has some, whatever the sign is. -/
def NaNBits (bits : UInt64) : Prop := 2047 * 2 ^ 52 < bits.toNat % 2 ^ 63

instance : DecidablePred NaNBits := fun _ => inferInstanceAs (Decidable (_ < _))

theorem nanBits_iff (bits : UInt64) : NaNBits bits ↔
    @unpackExponent .binary64 bits.toBitVec = -1#_ ∧
      @unpackMantissa .binary64 bits.toBitVec ≠ 0#_ := by
  have hexponent := @unpackExponent_toNat .binary64 bits.toBitVec
  have hmantissa := @unpackMantissa_toNat .binary64 bits.toBitVec
  have hzero : (0#(Format.mantissaBitsWithoutImplicit .binary64)).toNat = 0 := rfl
  have hbits : 2 ^ Format.exponentBits .binary64 = 2 ^ 11 := rfl
  rw [binade_binary64, UInt64.toNat_toBitVec] at hexponent hmantissa
  rw [NaNBits, eq_neg_one_iff, ne_eq, ← BitVec.toNat_inj, hexponent, hmantissa, hzero, hbits]
  omega

/-- Only the patterns of NaN are not kept. -/
theorem toBits_ofBits {bits : UInt64} (h : ¬NaNBits bits) : (Float.ofBits bits).toBits = bits := by
  rw [nanBits_iff] at h
  have hvalid : Format.Valid .binary64 bits.toBitVec :=
    ⟨fun hexponent hmantissa => absurd ⟨hexponent, hmantissa⟩ h⟩
  exact congrArg Float.toBits (Float.ofBits_toBits (.ofModel ⟨bits, hvalid⟩))

theorem unpack_eq_notANumber_iff {format : Format} (b : BitVec format.numBits) :
    unpack format b = .notANumber ↔ unpackExponent b = -1#_ ∧ unpackMantissa b ≠ 0#_ := by
  unfold unpack
  dsimp only
  split_ifs <;> simp_all

theorem isNaN_ofBits_iff (bits : UInt64) : (Float.ofBits bits).isNaN = true ↔ NaNBits bits := by
  have hnan := @unpack_eq_notANumber_iff .binary64 bits.toBitVec
  rw [← nanBits_iff] at hnan
  constructor
  · intro h
    by_contra hnumber
    have hunpack : (Float.ofBits bits).toModel.unpack
        = unpack .binary64 (Float.ofBits bits).toBits.toBitVec := rfl
    rw [toBits_ofBits hnumber, isNaN_iff.mp h] at hunpack
    exact hnumber (hnan.mp hunpack.symm)
  · intro h
    have hmodel : Float.ofBits bits = .ofModel (.pack (unpack .binary64 bits.toBitVec)) := rfl
    rw [hmodel, hnan.mpr h]
    exact isNaN_pack_notANumber

/-- Different bits are different numbers, except that all NaN bits are one. -/
theorem ofBits_eq_iff {bits bits' : UInt64} :
    Float.ofBits bits = Float.ofBits bits' ↔ bits = bits' ∨ NaNBits bits ∧ NaNBits bits' := by
  constructor
  · intro h
    by_cases hnan : NaNBits bits
    · exact Or.inr ⟨hnan, (isNaN_ofBits_iff bits').mp (h ▸ (isNaN_ofBits_iff bits).mpr hnan)⟩
    · have hnan' : ¬NaNBits bits' := fun hnan' =>
        hnan ((isNaN_ofBits_iff bits).mp (h ▸ (isNaN_ofBits_iff bits').mpr hnan'))
      exact Or.inl (by rw [← toBits_ofBits hnan, h, toBits_ofBits hnan'])
  · rintro (rfl | ⟨hnan, hnan'⟩)
    · rfl
    · exact eq_of_isNaN ((isNaN_ofBits_iff bits).mpr hnan) ((isNaN_ofBits_iff bits').mpr hnan')

/-! ## The laws of the comparison -/

namespace Candidate

instance : Std.TransCmp rank where
  eq_swap {a b} := by
    rw [rank_eq_compare, rank_eq_compare]
    exact Std.OrientedCmp.eq_swap
  isLE_trans {a b c} hab hbc := by
    rw [rank_eq_compare] at hab hbc ⊢
    exact Std.TransCmp.isLE_trans hab hbc

theorem rank_eq_iff {a b : Candidate} : rank a b = .eq ↔ a = b := by
  rw [rank_eq_compare, compare_eq_iff_eq, rankKey_injective.eq_iff]

instance : Std.LawfulEqCmp rank where
  compare_self := rank_eq_iff.mpr rfl
  eq_of_compare := rank_eq_iff.mp

/-- Of candidates with different indices no two compare equal. -/
theorem pairwise_rank_ne {cs : List Candidate} (h : (cs.map index).Nodup) :
    cs.Pairwise fun a b => rank a b ≠ .eq := by
  refine (List.pairwise_map.mp h).imp ?_
  intro a b hindex heq
  exact hindex (congrArg index (rank_eq_iff.mp heq))

/-- Two distances are ranked as numbers are, any NaN after all numbers and equals by index. -/
structure RankedAsNumbers (x y : Float) : Prop where
  numbers : x.isNaN = false → y.isNaN = false →
    ∀ i j, rank ⟨x, i⟩ ⟨y, j⟩ = .lt ↔ x < y ∨ x == y ∧ i < j
  nanLast : x.isNaN = false → y.isNaN = true → ∀ i j, rank ⟨x, i⟩ ⟨y, j⟩ = .lt

/-- Distances are ranked by their values, and NaN comes after them. -/
theorem rankedAsNumbers {x y : Float} (hx : Unsigned x) (hy : Unsigned y) :
    RankedAsNumbers x y := by
  have hrank : ∀ i j, rank ⟨x, i⟩ ⟨y, j⟩ = .lt ↔ Precedes ⟨x, i⟩ ⟨y, j⟩ := fun i j =>
    (precedes_iff_lt (a := ⟨x, i⟩) (b := ⟨y, j⟩) hx hy).symm
  refine ⟨?_, fun hnum hnan i j => (hrank i j).mpr (Or.inl ⟨hnum, hnan⟩)⟩
  intro hnum hnum' i j
  rw [hrank, Precedes, hnum, hnum']
  simp

end Candidate

/-! ## Candidates by their bits -/

/-- A candidate with its distance given by the bits of a binary64 number. -/
structure CandidateBits where
  bits : UInt64
  index : Nat

namespace CandidateBits

open Candidate (RankedAsNumbers)

/-- The candidate whose distance has these bits. -/
def candidate (c : CandidateBits) : Candidate := ⟨Float.ofBits c.bits, c.index⟩

/-- The order in which the candidates with these bits are listed. -/
def rank (c d : CandidateBits) : Ordering := Candidate.rank c.candidate d.candidate

instance : Std.TransCmp rank where
  eq_swap {c d} := @Std.OrientedCmp.eq_swap _ Candidate.rank _ c.candidate d.candidate
  isLE_trans {c d e} :=
    @Std.TransCmp.isLE_trans _ Candidate.rank _ c.candidate d.candidate e.candidate

theorem rank_eq_iff {c d : CandidateBits} : c.rank d = .eq ↔
    c.index = d.index ∧ (c.bits = d.bits ∨ NaNBits c.bits ∧ NaNBits d.bits) := by
  rw [rank, Candidate.rank_eq_iff, candidate, candidate, Candidate.mk.injEq, ofBits_eq_iff,
    and_comm]

/-- Candidates are ranked in a total order, whatever the bits of their distances: the comparison is
reflexive, turns around with its arguments and is transitive, and it calls two candidates equal only
if their indices agree and their distances are both NaN or have the same bits. The distances that
metrics give are ranked as numbers, those that are NaN last. So no two candidates of a list compare
equal if their indices are distinct, as they are among the candidates for a query point. -/
theorem rank_total_order :
    (∀ c : CandidateBits, c.rank c = .eq) ∧
    (∀ c d : CandidateBits, d.rank c = (c.rank d).swap) ∧
    (∀ (c d e : CandidateBits) (order : Ordering),
      c.rank d = order → d.rank e = order → c.rank e = order) ∧
    (∀ c d e : CandidateBits, (c.rank d).isLE → (d.rank e).isLE → (c.rank e).isLE) ∧
    (∀ c d : CandidateBits, c.rank d = .eq ↔
      c.index = d.index ∧ (c.bits = d.bits ∨ NaNBits c.bits ∧ NaNBits d.bits)) ∧
    (∀ (m m' : Metric) (a b a' b' : Point) (x y : Float),
      m.distance? a b = some x → m'.distance? a' b' = some y → RankedAsNumbers x y) ∧
    (∀ cs : List CandidateBits, (cs.map index).Nodup → cs.Pairwise fun c d => c.rank d ≠ .eq) ∧
    ∀ (metric : Metric) (points : List Point) (query : Point) (cs : List Candidate),
      candidates? metric points query = some cs →
        cs.Pairwise fun c d => Candidate.rank c d ≠ .eq := by
  refine ⟨fun c => Std.ReflCmp.compare_self, fun c d => Std.OrientedCmp.eq_swap, ?_, ?_,
    fun c d => rank_eq_iff, ?_, ?_, ?_⟩
  · intro c d e order hcd hde
    cases order with
    | lt => exact Std.TransCmp.lt_trans hcd hde
    | eq => exact Std.TransCmp.eq_trans hcd hde
    | gt => exact Std.TransCmp.gt_trans hcd hde
  · exact fun c d e hcd hde => Std.TransCmp.isLE_trans hcd hde
  · intro m m' a b a' b' x y hx hy
    exact Candidate.rankedAsNumbers (Metric.unsigned_distance hx) (Metric.unsigned_distance hy)
  · intro cs hdistinct
    have hindices : ((cs.map candidate).map Candidate.index).Nodup := by
      rw [List.map_map]
      exact hdistinct
    exact List.pairwise_map.mp (Candidate.pairwise_rank_ne hindices)
  · intro metric points query cs hcs
    exact Candidate.pairwise_rank_ne (map_index_of_candidates? hcs ▸ List.nodup_range)

/-- NaN with either sign and any payload is one distance, while the zeros are two. -/
theorem rank_nan_and_zeros :
    rank ⟨0xFFF0000000000001, 3⟩ ⟨0x7FF8000000000000, 3⟩ = .eq ∧
    rank ⟨0x8000000000000000, 3⟩ ⟨0, 3⟩ ≠ .eq ∧
    RankedAsNumbers 3 4 ∧
    [(⟨0, 2⟩ : CandidateBits), ⟨0, 1⟩].Pairwise fun c d => c.rank d ≠ .eq := by
  obtain ⟨-, -, -, -, hequal, hdistances, hdistinct, -⟩ := rank_total_order
  refine ⟨(hequal _ _).mpr ?_, fun h => absurd ((hequal _ _).mp h) ?_,
    hdistances .euclidean .manhattan [0] [3] [1] [5] 3 4 ?_ ?_, hdistinct _ (by decide)⟩
  · exact ⟨rfl, Or.inr ⟨by decide, by decide⟩⟩
  · decide
  · decide +kernel
  · decide +kernel

end CandidateBits

end NeighborSearch
