import NeighborSearch.Proofs.Fitting

/-!
# Widening

A number of a format is rounded to itself in whatever way significand and exponent are chosen. So
every binary32 number has an equal one in binary64, narrowing takes that one back to it, and what
lies beyond the range of binary32 after widening was infinite before.
-/

namespace NeighborSearch

open Float.Model (Format UnpackedFloat)
open Float.Model.UnpackedFloat

section Formats

variable {format : Format}

/-! ## Rounding what is exact -/

/-- A place belongs to one normalised number. -/
theorem Normalised.eq_of_place_eq {m m' : Nat} {e e' : Int} (h : Normalised format m e)
    (h' : Normalised format m' e') (hplace : finitePlace format m e = finitePlace format m' e') :
    m = m' ∧ e = e' := by
  rcases lt_trichotomy e e' with he | rfl | he
  · have := h.place_lt_of_exponent_lt h' he
    omega
  · unfold finitePlace at hplace
    omega
  · have := h'.place_lt_of_exponent_lt h he
    omega

/-- Rounding finds the normalised significand and exponent of a number that has them. -/
theorem Normalised.round_eq {m m' : Nat} {e e' : Int} (h : Normalised format m' e') (hm' : 0 < m')
    (hm : 0 < m) (hvalue : (m : ℚ) * 2 ^ e = m' * 2 ^ e') (s : Sign) :
    round format s m e = .finite s m' e' hm' := by
  obtain ⟨p, hp, hstands⟩ := round_spec format s hm e
  obtain rfl := hp.unique (hvalue ▸ h.roundsTo hm') (by positivity)
  have hpos := h.place_pos hm'
  cases hround : round format s m e with
  | zero s' =>
    rw [hround] at hstands
    cases hstands
    omega
  | finite s' n t hn =>
    rw [hround] at hstands
    cases hstands with
    | finite _ hnormal hplace =>
      obtain ⟨rfl, rfl⟩ := hnormal.eq_of_place_eq h hplace
      rfl
  | infinity s' =>
    rw [hround] at hstands
    cases hstands
  | notANumber =>
    rw [hround] at hstands
    cases hstands

end Formats

/-! ## The wider number -/

/-- A binary32 number has a significand of full length in binary64. -/
theorem exists_normalised64 {m : Nat} {e : Int} (hm : 0 < m) (h : Normalised .binary32 m e)
    (hlt : finitePlace .binary32 m e < infinityPlace .binary32) :
    ∃ (m' : Nat) (e' : Int), 0 < m' ∧ Normalised .binary64 m' e' ∧
      finitePlace .binary64 m' e' < infinityPlace .binary64 ∧ (m : ℚ) * 2 ^ e = m' * 2 ^ e' := by
  have hlow := h.least
  have hfits := h.fits
  rw [finitePlace, infinityPlace_binary32, minExponent_binary32, binade_binary32] at hlt
  rw [minExponent_binary32] at hlow
  rw [binade_binary32] at hfits
  have hlog : m.log2 ≤ 23 := by
    have := (Nat.log2_lt hm.ne').mpr (show m < 2 ^ 24 by omega)
    omega
  have hdigits : 2 ^ m.log2 * 2 ^ (52 - m.log2) = 2 ^ 52 := by
    rw [← pow_add]
    congr 1
    omega
  have hleading : 2 ^ 52 ≤ m * 2 ^ (52 - m.log2) := by
    rw [← hdigits]
    exact Nat.mul_le_mul_right _ (Nat.log2_self_le hm.ne')
  have hfits' : m * 2 ^ (52 - m.log2) < 2 * 2 ^ 52 := by
    rw [← hdigits, ← mul_assoc, ← pow_succ']
    exact Nat.mul_lt_mul_of_pos_right Nat.lt_log2_self (Nat.two_pow_pos _)
  refine ⟨m * 2 ^ (52 - m.log2), e - (52 - m.log2 : ℕ), by positivity, ⟨?_, ?_, Or.inr ?_⟩, ?_, ?_⟩
  · rw [minExponent_binary64]
    omega
  · rw [binade_binary64]
    exact hfits'
  · rw [binade_binary64]
    exact hleading
  · rw [finitePlace, infinityPlace_binary64, minExponent_binary64, binade_binary64]
    push_cast at hlt
    omega
  · rw [zpow_sub₀ (by norm_num), zpow_natCast]
    push_cast
    field_simp

/-- A binary32 value in binary64. -/
def widened (u : UnpackedFloat) : UnpackedFloat :=
  unpack .binary64 (pack .binary64 (reformat .binary64 u))

theorem unpack_widen (v : Float32) : (widen v).toModel.unpack = widened v.toModel.unpack := rfl

theorem widened_infinity (s : Sign) : widened (.infinity s) = .infinity s :=
  unpack_packedInfinity s

theorem widened_zero (s : Sign) : widened (.zero s) = .zero s := unpack_packedZero

theorem widened_notANumber : widened .notANumber = .notANumber := unpack_packedNaN

/-- Widening a finite number gives a finite number of the same sign and the same size. -/
theorem exists_widened_finite (s : Sign) {m : Nat} {e : Int} (hm : 0 < m)
    (h : Representable .binary32 (.finite s m e hm)) :
    ∃ (m' : Nat) (e' : Int) (hm' : 0 < m'), Normalised .binary64 m' e' ∧
      (m : ℚ) * 2 ^ e = m' * 2 ^ e' ∧
      widened (.finite s m e hm) = .finite s m' e' hm' := by
  obtain ⟨m', e', hm', hnormal, hlt, hvalue⟩ := exists_normalised64 hm h.1 h.2
  refine ⟨m', e', hm', hnormal, hvalue, ?_⟩
  rw [widened, reformat, hnormal.round_eq hm' hm hvalue]
  exact unpack_pack_finite s hm' hnormal (by decide) hlt

/-- Narrowing takes back what widening did. -/
theorem reformat_widened {u : UnpackedFloat} (h : Representable .binary32 u) :
    reformat .binary32 (widened u) = u := by
  cases u with
  | notANumber =>
    rw [widened_notANumber]
    rfl
  | zero s =>
    rw [widened_zero]
    rfl
  | infinity s =>
    rw [widened_infinity]
    rfl
  | finite s m e hm =>
    obtain ⟨m', e', hm', -, hvalue, hwidened⟩ := exists_widened_finite s hm h
    rw [hwidened, reformat, h.1.round_eq hm hm' hvalue.symm]

/-- A binary32 number survives the way through binary64. -/
@[simp]
theorem narrow_widen (v : Float32) : narrow (widen v) = v := by
  rw [narrow, unpack_widen, reformat_widened (representable32 v), ofModel_pack_unpack]

@[simp]
theorem isNaN_widen_eq (v : Float32) : (widen v).isNaN = v.isNaN := by
  rw [← isNaN_narrow, narrow_widen]

/-! ## The range of binary32 -/

/-- Infinity stands next to the largest finite number, which has 24 ones for a significand. -/
theorem value_le_of_place_lt {m : Nat} {e : Int} (h : Normalised .binary32 m e)
    (hlt : finitePlace .binary32 m e < infinityPlace .binary32) :
    (m : ℚ) * 2 ^ e ≤ (2 ^ 24 - 1 : ℕ) * 2 ^ (104 : ℤ) := by
  have hmax : Normalised .binary32 (2 ^ 24 - 1) 104 := ⟨by decide, by decide, Or.inr (by decide)⟩
  have hplace : finitePlace .binary32 (2 ^ 24 - 1) 104 = infinityPlace .binary32 - 1 := by decide
  refine h.value_le hmax ?_
  rw [hplace]
  omega

theorem place_le_float32Max {m : Nat} {e : Int} (hm : 0 < m) (h : Normalised .binary64 m e)
    (hle : (m : ℚ) * 2 ^ e ≤ (2 ^ 24 - 1 : ℕ) * 2 ^ (104 : ℤ)) :
    finitePlace .binary64 m e ≤ place64 float32Max := by
  have hmax : Normalised .binary64 ((2 ^ 24 - 1) * 2 ^ 29) 75 :=
    ⟨by decide, by decide, Or.inr (by decide)⟩
  have hplace : place64 float32Max = finitePlace .binary64 ((2 ^ 24 - 1) * 2 ^ 29) 75 := by decide
  have hvalue : ((2 ^ 24 - 1 : ℕ) : ℚ) * 2 ^ (104 : ℤ)
      = ((2 ^ 24 - 1) * 2 ^ 29 : ℕ) * 2 ^ (75 : ℤ) := by norm_num
  rw [hplace]
  exact (h.roundsTo hm).mono (hmax.roundsTo (by decide)) (by positivity) (hvalue ▸ hle)

/-- A number no larger than the largest binary32 number is not outside. -/
theorem outsideFloat32_of_place {x : Float} (hx : x.isNaN = false)
    (h : |place64 x| ≤ place64 float32Max) : outsideFloat32 x = false := by
  have hlow : place64 (-float32Max) = -place64 float32Max := by decide
  obtain ⟨hleast, hmost⟩ := abs_le.mp h
  rw [outsideFloat32_eq_false_iff]
  right
  rw [le_iff_place64 (by decide) hx, le_iff_place64 hx (by decide), hlow]
  exact ⟨hleast, hmost⟩

/-- Only an infinite number is too large for binary32 after widening. -/
theorem outsideFloat32_widen (v : Float32) : outsideFloat32 (widen v) = v.isInf := by
  have hrepresentable := representable32 v
  have hmodel : widen v = .ofModel (.pack (reformat .binary64 v.toModel.unpack)) := rfl
  have hplace : place64 (widen v) = place .binary64 (widened v.toModel.unpack) := rfl
  change _ = v.toModel.unpack.isInf
  cases hu : v.toModel.unpack with
  | notANumber =>
    have hnan : v.isNaN = true := isNaN_iff.mpr hu
    exact outsideFloat32_eq_false_iff.mpr (Or.inl (isNaN_widen hnan))
  | infinity s =>
    rw [hmodel, hu]
    cases s <;> decide
  | zero s =>
    rw [hmodel, hu]
    cases s <;> decide
  | finite s m e hm =>
    rw [hu] at hrepresentable hplace
    have hnan : (widen v).isNaN = false := by
      rw [isNaN_widen_eq]
      change v.toModel.unpack.isNaN = false
      rw [hu]
      rfl
    obtain ⟨m', e', hm', hnormal, hvalue, hwidened⟩ := exists_widened_finite s hm hrepresentable
    have hle := place_le_float32Max hm' hnormal
      (hvalue ▸ value_le_of_place_lt hrepresentable.1 hrepresentable.2)
    have hpos := hnormal.place_pos hm'
    refine outsideFloat32_of_place hnan ?_
    rw [hplace, hwidened, place, abs_le]
    cases s <;> simp only [Sign.apply] <;> omega

end NeighborSearch
