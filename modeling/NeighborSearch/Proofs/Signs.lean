import NeighborSearch.Proofs.Arithmetic

/-!
# Signs and the order of operands

Sums and products do not depend on the order of their operands. A product turns its sign with
either factor, an absolute value does not, and a difference turns its sign when its operands are
exchanged. The exception is a difference of which nothing is left: it is zero either way, and never
negative zero.
-/

namespace NeighborSearch

open Float.Model (Format UnpackedFloat)
open Float.Model.UnpackedFloat

/-! ## Before packing -/

section Unpacked

variable {format : Format}

theorem Sign.neg_neg (s : Sign) : -(-s) = s := by cases s <;> rfl

theorem Sign.neg_mul (s t : Sign) : -s * t = -(s * t) := by cases s <;> cases t <;> rfl

theorem Sign.mul_comm (s t : Sign) : s * t = t * s := by cases s <;> cases t <;> rfl

theorem Sign.apply_neg (s : Sign) (n : Int) : (-s).apply n = -(s.apply n) := by
  cases s with
  | negative => exact (Int.neg_neg n).symm
  | positive => rfl

theorem neg_neg_unpacked (u : UnpackedFloat) : u.neg.neg = u := by
  cases u <;> simp only [UnpackedFloat.neg, Sign.neg_neg]

theorem abs_neg_unpacked (u : UnpackedFloat) : u.neg.abs = u.abs := by cases u <;> rfl

/-- Rounding does not look at the sign. -/
theorem roundWithAccuracy_neg (s : Sign) (m : Nat) (e : Int) (accuracy : Accuracy) :
    roundWithAccuracy format (-s) m e accuracy = (roundWithAccuracy format s m e accuracy).neg := by
  unfold roundWithAccuracy
  dsimp only
  split_ifs <;> rfl

theorem normalize_neg {n : Int} (hn : n ≠ 0) (e : Int) :
    UnpackedFloat.normalize format (-n) e .positive
      = (UnpackedFloat.normalize format n e .positive).neg := by
  unfold UnpackedFloat.normalize
  rcases lt_or_gt_of_ne hn with hneg | hpos
  · rw [compare_lt_iff_lt.mpr hneg, compare_gt_iff_gt.mpr (Int.neg_pos_of_neg hneg)]
    exact roundWithAccuracy_neg .negative _ _ _
  · rw [compare_gt_iff_gt.mpr hpos, compare_lt_iff_lt.mpr (Int.neg_neg_of_pos hpos), Int.neg_neg]
    exact roundWithAccuracy_neg .positive _ _ _

/-- Addition rounds the same sum in either order. -/
theorem add_comm_unpacked (u v : UnpackedFloat) : add format u v = add format v u := by
  cases u with
  | notANumber => cases v <;> rfl
  | infinity s =>
    cases v with
    | infinity t => cases s <;> cases t <;> rfl
    | _ => rfl
  | zero s =>
    cases v with
    | zero t => cases s <;> cases t <;> rfl
    | _ => rfl
  | finite s m e hm =>
    cases v with
    | finite t n k hn =>
      simp only [add, min_comm e k]
      rw [Int.add_comm]
    | _ => rfl

theorem mul_comm_unpacked (u v : UnpackedFloat) : mul format u v = mul format v u := by
  cases u <;> cases v <;> simp only [mul, Sign.mul_comm, Nat.mul_comm, Int.add_comm]

/-- The sign of a factor is that of the product. -/
theorem neg_mul_unpacked (u v : UnpackedFloat) : mul format u.neg v = (mul format u v).neg := by
  cases u <;> cases v <;>
    simp only [mul, UnpackedFloat.neg, Sign.neg_mul, roundWithAccuracy_neg]

/-- Exchanging the operands of a difference turns its sign, unless nothing is left of it. -/
theorem sub_swap_unpacked (u v : UnpackedFloat) :
    sub format v u = (sub format u v).neg ∨ sub format v u = sub format u v := by
  cases u with
  | notANumber => cases v <;> exact Or.inr rfl
  | infinity s =>
    left
    cases v with
    | infinity t => cases s <;> cases t <;> rfl
    | _ => rfl
  | zero s =>
    cases v with
    | zero t =>
      by_cases hst : s = t
      · rw [hst]
        exact Or.inr rfl
      · left
        cases s <;> cases t <;> first | rfl | exact absurd rfl hst
    | notANumber => exact Or.inr rfl
    | _ =>
      left
      simp only [sub, UnpackedFloat.neg, Sign.neg_neg]
  | finite s m e hm =>
    cases v with
    | finite t n k hn =>
      simp only [sub, min_comm k e]
      rw [← Int.neg_sub]
      by_cases hzero : s.apply (decreaseExponent m e (min e k)).1
          - t.apply (decreaseExponent n k (min e k)).1 = 0
      · rw [hzero]
        exact Or.inr rfl
      · exact Or.inl (normalize_neg hzero _)
    | infinity t =>
      left
      simp only [sub, UnpackedFloat.neg, Sign.neg_neg]
    | zero t => exact Or.inl rfl
    | notANumber => exact Or.inr rfl

theorem unpack_packComponents_neg (s : Sign) (E : BitVec format.exponentBits)
    (M : BitVec format.mantissaBitsWithoutImplicit) :
    unpack format (packComponents format (-s) E M)
      = (unpack format (packComponents format s E M)).neg := by
  simp only [unpack, unpackMantissa_packComponents, unpackExponent_packComponents,
    unpackSign_packComponents, Sign.ofBitVec_toBitVec]
  split_ifs <;> rfl

/-- The sign goes through packing as it is. -/
theorem unpack_pack_neg (u : UnpackedFloat) :
    unpack format (pack format u.neg) = (unpack format (pack format u)).neg := by
  cases u with
  | notANumber => simp only [UnpackedFloat.neg, pack, unpack_packedNaN]
  | infinity s => simp only [UnpackedFloat.neg, pack, unpack_packedInfinity]
  | zero s => simp only [UnpackedFloat.neg, pack, unpack_packedZero]
  | finite s m e hm =>
    simp only [UnpackedFloat.neg, pack]
    split_ifs
    · simp only [unpack_packedInfinity]
    · exact unpack_packComponents_neg s _ _
    · exact unpack_packComponents_neg s _ _

end Unpacked

/-! ## Numbers -/

variable {x y : Float}

theorem unpack_neg (x : Float) : (-x).toModel.unpack = x.toModel.unpack.neg :=
  calc (-x).toModel.unpack
      = unpack .binary64 (pack .binary64 x.toModel.unpack.neg) := rfl
    _ = (unpack .binary64 (pack .binary64 x.toModel.unpack)).neg := unpack_pack_neg _
    _ = (Float.ofModel (.pack x.toModel.unpack)).toModel.unpack.neg := rfl
    _ = x.toModel.unpack.neg := by rw [ofModel_pack_unpack64]

/-- The sign of what is packed becomes the sign of the number. -/
theorem ofModel_pack_neg (u : UnpackedFloat) :
    Float.ofModel (.pack u.neg) = -Float.ofModel (.pack u) := by
  have hneg := ofModel_pack_unpack64 (.ofModel (.pack u.neg))
  change Float.ofModel (.pack (unpack .binary64 (pack .binary64 u.neg))) = _ at hneg
  rw [unpack_pack_neg] at hneg
  exact hneg.symm

theorem neg_neg_float (x : Float) : -(-x) = x := by
  have hneg : -(-x) = .ofModel (.pack (-x).toModel.unpack.neg) := rfl
  rw [hneg, unpack_neg, neg_neg_unpacked, ofModel_pack_unpack64]

theorem abs_neg_float (x : Float) : (-x).abs = x.abs := by
  change Float.ofModel (.pack (-x).toModel.unpack.abs) = .ofModel (.pack x.toModel.unpack.abs)
  rw [unpack_neg, abs_neg_unpacked]

theorem add_comm_float (x y : Float) : x + y = y + x := by
  change Float.ofModel (.pack (add .binary64 x.toModel.unpack y.toModel.unpack))
    = .ofModel (.pack (add .binary64 y.toModel.unpack x.toModel.unpack))
  rw [add_comm_unpacked]

theorem mul_comm_float (x y : Float) : x * y = y * x := by
  change Float.ofModel (.pack (mul .binary64 x.toModel.unpack y.toModel.unpack))
    = .ofModel (.pack (mul .binary64 y.toModel.unpack x.toModel.unpack))
  rw [mul_comm_unpacked]

theorem neg_mul_float (x y : Float) : -x * y = -(x * y) := by
  change Float.ofModel (.pack (mul .binary64 (-x).toModel.unpack y.toModel.unpack))
    = -Float.ofModel (.pack (mul .binary64 x.toModel.unpack y.toModel.unpack))
  rw [unpack_neg, neg_mul_unpacked, ofModel_pack_neg]

theorem mul_neg_float (x y : Float) : x * -y = -(x * y) := by
  rw [mul_comm_float, neg_mul_float, mul_comm_float]

/-- The second number is the first one or its negation. -/
def UpToSign (x y : Float) : Prop := y = -x ∨ y = x

/-- A difference taken the other way round differs in its sign at most. -/
theorem upToSign_sub (x y : Float) : UpToSign (x - y) (y - x) := by
  have hsub : ∀ x y : Float,
      x - y = .ofModel (.pack (sub .binary64 x.toModel.unpack y.toModel.unpack)) := fun _ _ => rfl
  rw [UpToSign, hsub, hsub, ← ofModel_pack_neg]
  rcases @sub_swap_unpacked .binary64 x.toModel.unpack y.toModel.unpack with h | h
  · exact Or.inl (by rw [h])
  · exact Or.inr (by rw [h])

namespace UpToSign

theorem abs (h : UpToSign x y) : y.abs = x.abs := by
  rcases h with rfl | rfl
  · exact abs_neg_float x
  · rfl

theorem square (h : UpToSign x y) : y * y = x * x := by
  rcases h with rfl | rfl
  · rw [neg_mul_float, mul_neg_float, neg_neg_float]
  · rfl

/-- Multiplying twice by a number leaves no trace of its sign. -/
theorem mul_mul (h : UpToSign x y) (c : Float) : c * y * y = c * x * x := by
  rcases h with rfl | rfl
  · rw [mul_neg_float, mul_neg_float, neg_mul_float, neg_neg_float]
  · rfl

theorem mul_right (h : UpToSign x y) (c : Float) : UpToSign (x * c) (y * c) := by
  rcases h with rfl | rfl
  · exact Or.inl (neg_mul_float x c)
  · exact Or.inr rfl

end UpToSign

theorem isNaN_neg (x : Float) : (-x).isNaN = x.isNaN := by
  show (-x).toModel.unpack.isNaN = x.toModel.unpack.isNaN
  rw [unpack_neg]
  cases x.toModel.unpack <;> rfl

theorem place64_neg (x : Float) : place64 (-x) = -place64 x := by
  rw [place64, unpack_neg, place64]
  cases x.toModel.unpack with
  | notANumber => rfl
  | zero s => rfl
  | infinity s => exact Sign.apply_neg s _
  | finite s m e hm => exact Sign.apply_neg s _

end NeighborSearch
