import NeighborSearch.Proofs.Rounding

/-!
# NaN and zero in arithmetic

What comes of an operation when one of its operands is NaN, when an operand is zero, and when a
quotient is small. NaN goes through every operation, a zero adds nothing except to a zero of the
other sign, and the reciprocal of a finite number is large enough to be told from zero.
-/

namespace NeighborSearch

open Float.Model (Format UnpackedFloat)
open Float.Model.UnpackedFloat

/-! ## NaN -/

section NaN

variable {x y : Float}

theorem unpack_of_isNaN (h : x.isNaN = true) : x.toModel.unpack = .notANumber := isNaN_iff.mp h

theorem isNaN_pack_notANumber : (Float.ofModel (.pack .notANumber)).isNaN = true := by decide

/-- An operation that lets NaN through before its result is packed does so afterwards. -/
theorem isNaN_pack_op {op : UnpackedFloat → UnpackedFloat → UnpackedFloat}
    (hleft : ∀ v, op .notANumber v = .notANumber) (hright : ∀ u, op u .notANumber = .notANumber)
    (h : x.isNaN = true ∨ y.isNaN = true) :
    (Float.ofModel (.pack (op x.toModel.unpack y.toModel.unpack))).isNaN = true := by
  rcases h with hx | hy
  · rw [unpack_of_isNaN hx, hleft]
    exact isNaN_pack_notANumber
  · rw [unpack_of_isNaN hy, hright]
    exact isNaN_pack_notANumber

theorem isNaN_add (h : x.isNaN = true ∨ y.isNaN = true) : (x + y).isNaN = true :=
  isNaN_pack_op (fun _ => rfl) (fun u => by cases u <;> rfl) h

theorem isNaN_sub (h : x.isNaN = true ∨ y.isNaN = true) : (x - y).isNaN = true :=
  isNaN_pack_op (fun _ => rfl) (fun u => by cases u <;> rfl) h

theorem isNaN_mul (h : x.isNaN = true ∨ y.isNaN = true) : (x * y).isNaN = true :=
  isNaN_pack_op (fun _ => rfl) (fun u => by cases u <;> rfl) h

theorem isNaN_div (h : x.isNaN = true ∨ y.isNaN = true) : (x / y).isNaN = true :=
  isNaN_pack_op (fun _ => rfl) (fun u => by cases u <;> rfl) h

theorem isNaN_abs (h : x.isNaN = true) : x.abs.isNaN = true := by
  change (Float.ofModel (.pack (UnpackedFloat.abs x.toModel.unpack))).isNaN = true
  rw [unpack_of_isNaN h]
  exact isNaN_pack_notANumber

theorem isNaN_sqrt (h : x.isNaN = true) : x.sqrt.isNaN = true := by
  change (Float.ofModel (.pack (UnpackedFloat.sqrt .binary64 x.toModel.unpack))).isNaN = true
  rw [unpack_of_isNaN h]
  exact isNaN_pack_notANumber

theorem compare_of_isNaN (h : x.isNaN = true ∨ y.isNaN = true) :
    x.toModel.unpack.compare y.toModel.unpack = none := by
  rcases h with hx | hy
  · rw [unpack_of_isNaN hx]
    rfl
  · rw [unpack_of_isNaN hy]
    cases x.toModel.unpack <;> rfl

theorem not_lt_of_isNaN_or (h : x.isNaN = true ∨ y.isNaN = true) : ¬x < y := by
  change ¬decide (x.toModel.unpack.lt y.toModel.unpack = true) = true
  simp [UnpackedFloat.lt, compare_of_isNaN h]

theorem not_le_of_isNaN (h : x.isNaN = true ∨ y.isNaN = true) : ¬x ≤ y := by
  change ¬decide (x.toModel.unpack.le y.toModel.unpack = true) = true
  simp [UnpackedFloat.le, compare_of_isNaN h]

theorem isNaN_of_lt (h : x < y) : x.isNaN = false ∧ y.isNaN = false := by
  rw [← Bool.not_eq_true, ← Bool.not_eq_true, ← not_or]
  exact fun hnan => not_lt_of_isNaN_or hnan h

theorem isNaN_of_le (h : x ≤ y) : x.isNaN = false ∧ y.isNaN = false := by
  rw [← Bool.not_eq_true, ← Bool.not_eq_true, ← not_or]
  exact fun hnan => not_le_of_isNaN hnan h

theorem isNaN_widen {v : Float32} (h : v.isNaN = true) : (widen v).isNaN = true := by
  have hunpack : v.toModel.unpack = .notANumber := isNaN_iff.mp h
  rw [widen, hunpack]
  exact isNaN_pack_notANumber

end NaN

/-! ## Adding zero -/

/-- Equal up to the sign of zero. -/
def Alike (a b : Float32) : Prop := a = b ∨ a == 0 ∧ b == 0

theorem ofModel_pack_unpack (v : Float32) : Float32.ofModel (.pack v.toModel.unpack) = v :=
  Float32.ofBits_toBits v

/-- Negative zero adds nothing. -/
theorem negZero_add (v : Float32) : -0.0 + v = v := by
  have hadd : UnpackedFloat.add .binary32 (.zero .negative) v.toModel.unpack = v.toModel.unpack := by
    cases v.toModel.unpack with
    | zero s => cases s <;> rfl
    | _ => rfl
  calc -0.0 + v
      = .ofModel (.pack (UnpackedFloat.add .binary32 (.zero .negative) v.toModel.unpack)) := rfl
    _ = v := by rw [hadd, ofModel_pack_unpack]

/-- Zero adds nothing except to negative zero, which it makes positive. -/
theorem zero_add_alike (v : Float32) : Alike (0 + v) v := by
  change Alike (.ofModel (.pack (UnpackedFloat.add .binary32 (.zero .positive) v.toModel.unpack))) v
  have hv := ofModel_pack_unpack v
  cases hu : v.toModel.unpack with
  | zero s =>
    rw [hu] at hv
    subst hv
    cases s <;> right <;> decide
  | _ =>
    left
    rw [hu] at hv
    exact hv

/-- Zero is written in two ways. -/
theorem eq_of_beq_zero {a : Float32} (h : a == 0) : a = 0 ∨ a = -0.0 := by
  have ha := ofModel_pack_unpack a
  change a.toModel.unpack.beq (.zero .positive) = true at h
  cases hu : a.toModel.unpack with
  | zero s =>
    rw [hu] at ha
    cases s with
    | negative => exact Or.inr ha.symm
    | positive => exact Or.inl ha.symm
  | finite s m e hm =>
    rw [hu] at h
    cases s <;> cases h
  | infinity s =>
    rw [hu] at h
    cases s <;> cases h
  | notANumber =>
    rw [hu] at h
    cases h

namespace Alike

variable {a b c : Float32}

theorem symm (h : Alike a b) : Alike b a := h.imp Eq.symm And.symm

theorem trans (hab : Alike a b) (hbc : Alike b c) : Alike a c := by
  rcases hab with rfl | ⟨ha, hb⟩
  · exact hbc
  · rcases hbc with rfl | ⟨-, hc⟩
    · exact Or.inr ⟨ha, hb⟩
    · exact Or.inr ⟨ha, hc⟩

/-- Adding to a zero changes at most the sign of a zero. -/
theorem zero_add (ha : a == 0) (v : Float32) : Alike (a + v) v := by
  rcases eq_of_beq_zero ha with rfl | rfl
  · exact zero_add_alike v
  · exact Or.inl (negZero_add v)

theorem add (h : Alike a b) (v : Float32) : Alike (a + v) (b + v) := by
  rcases h with rfl | ⟨ha, hb⟩
  · exact Or.inl rfl
  · exact (zero_add ha v).trans (zero_add hb v).symm

/-- The sign of a zero to begin with does not show in a sum, unless as the sign of zero. -/
theorem foldl_add (h : Alike a b) (vs : List Float32) :
    Alike (vs.foldl (· + ·) a) (vs.foldl (· + ·) b) := by
  induction vs generalizing a b with
  | nil => exact h
  | cons v vs ih => exact ih (h.add v)

end Alike

/-! ## Absolute values -/

theorem ofModel_pack_unpack64 (x : Float) : Float.ofModel (.pack x.toModel.unpack) = x :=
  Float.ofBits_toBits x

theorem unpack_abs {x : Float} {s : Sign} {m : Nat} {e : Int} {hm : 0 < m}
    (hx : x.toModel.unpack = .finite s m e hm) :
    x.abs.toModel.unpack = .finite .positive m e hm := by
  have hrepresentable := representable64 x
  rw [hx] at hrepresentable
  change unpack .binary64 (pack .binary64 x.toModel.unpack.abs) = _
  rw [hx]
  exact unpack_pack_finite .positive hm hrepresentable.1 (by decide) hrepresentable.2

/-! ## Quotients -/

section Quotients

variable {format : Format}

theorem mantissa_shiftRight (em : ExtendedMantissa) (k : Nat) :
    (em >>> k).mantissa = em.mantissa / 2 ^ k := by
  change (k.repeat ExtendedMantissa.shiftRightOne em).mantissa = _
  induction k with
  | zero => simp [Nat.repeat]
  | succ k ih =>
    rw [Nat.repeat, pow_succ, ← Nat.div_div_eq_div_mul, ← ih]
    rfl

/-- Rounding goes up by one at most, and never down. -/
theorem roundedMantissa_bounds (em : ExtendedMantissa) :
    em.mantissa ≤ em.roundedMantissa ∧ em.roundedMantissa ≤ em.mantissa + 1 := by
  obtain ⟨m, roundBit, stickyBit⟩ := em
  cases roundBit <;> cases stickyBit <;>
    simp only [ExtendedMantissa.roundedMantissa, ExtendedMantissa.accuracy,
      Accuracy.roundToNearestEven] <;> omega

theorem mantissa_ofMantissaAndAccuracy (m k : Nat) (accuracy : Accuracy) :
    (ExtendedMantissa.ofMantissaAndAccuracy m accuracy >>> k).mantissa = m / 2 ^ k := by
  rw [mantissa_shiftRight]
  cases accuracy with
  | exact => rfl
  | inexact o => cases o <;> rfl

/-- The digits above the rounding exponent fit the format and fill it, unless the exponent is the
least one. -/
theorem leading_digits {m : Nat} {e : Int} (hm : m ≠ 0) (he : e ≤ roundingExponent format m e) :
    m / 2 ^ (roundingExponent format m e - e).toNat < 2 * binade format ∧
      (roundingExponent format m e = format.minExponent ∨
        binade format ≤ m / 2 ^ (roundingExponent format m e - e).toNat) := by
  have hbits := mantissaBits_eq format
  have hmax : roundingExponent format m e
      = max (m.log2 + 1 + e - format.mantissaBits) format.minExponent := rfl
  constructor
  · have hhigh : m < 2 ^ (m.log2 + 1) := Nat.lt_log2_self
    rw [Nat.div_lt_iff_lt_mul (Nat.two_pow_pos _), binade, ← pow_succ', ← pow_add]
    exact hhigh.trans_le (Nat.pow_le_pow_right (by omega) (by omega))
  · by_cases hleast : roundingExponent format m e = format.minExponent
    · exact Or.inl hleast
    · have hlow : 2 ^ m.log2 ≤ m := Nat.log2_self_le hm
      right
      rw [Nat.le_div_iff_mul_le (Nat.two_pow_pos _), binade, ← pow_add]
      exact (Nat.pow_le_pow_right (by omega) (by omega)).trans hlow

/-- Rounding does not lose a number that the least exponent can tell from zero. -/
theorem exists_place_pos (s : Sign) {m : Nat} {e : Int} (accuracy : Accuracy)
    (hm : 2 ^ (format.minExponent - e).toNat ≤ m) (he : e ≤ roundingExponent format m e) :
    ∃ p > 0, StandsAt format s p (roundWithAccuracy format s m e accuracy) := by
  have hmpos : m ≠ 0 := by
    have := Nat.two_pow_pos (format.minExponent - e).toNat
    omega
  obtain ⟨hfits, hleading⟩ := leading_digits hmpos he
  have hleast := minExponent_le_roundingExponent format m e
  set t := roundingExponent format m e
  set k := (t - e).toNat with hk
  obtain ⟨hlow, hhigh⟩ :=
    roundedMantissa_bounds (ExtendedMantissa.ofMantissaAndAccuracy m accuracy >>> k)
  rw [mantissa_ofMantissaAndAccuracy] at hlow hhigh
  set n := (ExtendedMantissa.ofMantissaAndAccuracy m accuracy >>> k).roundedMantissa
  have hpos : 1 ≤ n := by
    rcases hleading with hequal | hfull
    · have hone : 1 ≤ m / 2 ^ k := by
        rw [Nat.le_div_iff_mul_le (Nat.two_pow_pos k), Nat.one_mul, hk, hequal]
        exact hm
      omega
    · have := binade_pos format
      omega
  refine ⟨finitePlace format n t, ?_, ?_⟩
  · have := finitePlace_nonneg format 0 hleast
    unfold finitePlace at this ⊢
    omega
  · have hfirst : shiftToTargetExponent format m e accuracy
        = (ExtendedMantissa.ofMantissaAndAccuracy m accuracy >>> k, t) :=
      Prod.ext rfl (by change e + ((t - e).toNat : Int) = t; omega)
    unfold roundWithAccuracy
    simp only [hfirst]
    exact standsAt_carry s hleast (by omega) (hleading.imp_right fun hfull => hfull.trans hlow)

/-- A numerator that is shifted far enough gives a quotient with the wanted number of digits. -/
theorem two_pow_le_quotient {m m' : Nat} (hm : 0 < m) (hm' : 0 < m') {digits shift : Nat}
    (h : digits + (m'.log2 + 1) ≤ m.log2 + shift) : 2 ^ digits ≤ m * 2 ^ shift / m' := by
  have hlow : 2 ^ m.log2 ≤ m := Nat.log2_self_le hm.ne'
  have hhigh : m' < 2 ^ (m'.log2 + 1) := Nat.lt_log2_self
  rw [Nat.le_div_iff_mul_le hm']
  calc 2 ^ digits * m'
      ≤ 2 ^ digits * 2 ^ (m'.log2 + 1) := Nat.mul_le_mul_left _ hhigh.le
    _ = 2 ^ (digits + (m'.log2 + 1)) := (pow_add _ _ _).symm
    _ ≤ 2 ^ (m.log2 + shift) := Nat.pow_le_pow_right (by omega) h
    _ = 2 ^ m.log2 * 2 ^ shift := pow_add _ _ _
    _ ≤ m * 2 ^ shift := Nat.mul_le_mul_right _ hlow

/-- A quotient of finite numbers that is not too small is not zero. -/
theorem exists_place_div (s s' : Sign) {m m' : Nat} {e e' : Int} (hm : 0 < m) (hm' : 0 < m')
    (h : format.minExponent < Float.Model.totalExponent m e - Float.Model.totalExponent m' e') :
    ∃ p > 0, StandsAt format (s / s') p (div format (.finite s m e hm) (.finite s' m' e' hm')) := by
  have htotal : Float.Model.totalExponent m e - Float.Model.totalExponent m' e'
      = m.log2 + e - (m'.log2 + e') := by
    simp only [Float.Model.totalExponent]
    ring
  rw [htotal] at h
  have hdiv : div format (.finite s m e hm) (.finite s' m' e' hm')
      = roundWithAccuracy format (s / s') (divCore format m e m' e').1 (divCore format m e m' e').2.1
        (divCore format m e m' e').2.2 := rfl
  set t := min (e - e') (format.targetExponent (m.log2 + e - (m'.log2 + e'))) with ht
  have hexponent : (divCore format m e m' e').2.1 = t := by simp only [divCore, htotal, ht]
  have hquotient : (divCore format m e m' e').1 = m * 2 ^ (e - e' - t).toNat / m' := by
    simp only [divCore, htotal, Nat.shiftLeft_eq, ht]
  have hmax : format.targetExponent (m.log2 + e - (m'.log2 + e'))
      = max (m.log2 + e - (m'.log2 + e') - format.mantissaBits) format.minExponent := rfl
  have hbits := mantissaBits_eq format
  -- The leading digit of the quotient is no further down than the leading digits of the operands say.
  have hdigit : 2 ^ (m.log2 + e - (m'.log2 + e') - 1 - t).toNat ≤ m * 2 ^ (e - e' - t).toNat / m' :=
    two_pow_le_quotient hm hm' (by omega)
  have hpos := Nat.two_pow_pos (m.log2 + e - (m'.log2 + e') - 1 - t).toNat
  have hlog := (Nat.le_log2 (by omega)).mpr hdigit
  have hround : roundingExponent format (m * 2 ^ (e - e' - t).toNat / m') t
      = max ((m * 2 ^ (e - e' - t).toNat / m').log2 + 1 + t - format.mantissaBits)
        format.minExponent := rfl
  rw [hdiv, hexponent, hquotient]
  refine exists_place_pos _ _ (le_trans (Nat.pow_le_pow_right (by omega) (by omega)) hdigit) ?_
  rw [hround]
  omega

/-- No finite number of binary64 is as large as the reciprocal of the least one. -/
theorem totalExponent_bound {m : Nat} {e : Int} (hm : 0 < m) (hnormal : Normalised .binary64 m e)
    (hlt : finitePlace .binary64 m e < infinityPlace .binary64) :
    Format.minExponent .binary64 < 1 - Float.Model.totalExponent m e := by
  have hfits : m.log2 < 53 := by
    rw [Nat.log2_lt hm.ne']
    have := hnormal.fits
    rw [binade_binary64] at this
    omega
  rw [finitePlace, infinityPlace_binary64, minExponent_binary64, binade_binary64] at hlt
  rw [minExponent_binary64, Float.Model.totalExponent]
  push_cast at hlt
  omega

/-- The reciprocal of a finite number has its sign and is not zero. -/
theorem place_reciprocal {p : Float} {s : Sign} {m : Nat} {e : Int} {hm : 0 < m}
    (hp : p.toModel.unpack = .finite s m e hm) :
    (1 / p).isNaN = false ∧ ∃ q > 0, place64 (1 / p) = (Sign.positive / s).apply q := by
  have hrepresentable := representable64 p
  rw [hp] at hrepresentable
  have hquotient : (1 / p).toModel.unpack = unpack .binary64 (pack .binary64
      (div .binary64 (.finite .positive (2 ^ 52) (-52) (by decide)) p.toModel.unpack)) := rfl
  rw [hp] at hquotient
  have hrange : Format.minExponent .binary64 < Float.Model.totalExponent (2 ^ 52) (-52)
      - Float.Model.totalExponent m e := by
    have hone : Float.Model.totalExponent (2 ^ 52) (-52) = 1 := by decide
    rw [hone]
    exact totalExponent_bound hm hrepresentable.1 hrepresentable.2
  obtain ⟨q, hpos, hstands⟩ := exists_place_div .positive s (by decide) hm hrange
  have hpack := hstands.place_pack (by decide)
  rw [← hquotient] at hpack
  exact ⟨hpack.1, _, lt_min hpos (infinityPlace_pos _), hpack.2⟩

/-- Only an infinite number has a reciprocal that is zero. -/
theorem reciprocal_ne_zero {p : Float} (hnan : p.isNaN = false) (hinf : p.isInf = false) :
    (1 / p == 0) = false := by
  cases hu : p.toModel.unpack with
  | notANumber =>
    change p.toModel.unpack.isNaN = false at hnan
    rw [hu] at hnan
    cases hnan
  | infinity s =>
    change p.toModel.unpack.isInf = false at hinf
    rw [hu] at hinf
    cases hinf
  | zero s =>
    have hquotient : (1 / p).toModel.unpack = unpack .binary64 (pack .binary64
        (div .binary64 (.finite .positive (2 ^ 52) (-52) (by decide)) p.toModel.unpack)) := rfl
    rw [hu] at hquotient
    change (1 / p).toModel.unpack.beq _ = false
    rw [hquotient]
    cases s <;> decide
  | finite s m e hm =>
    obtain ⟨hnumber, q, hpos, hplace⟩ := place_reciprocal hu
    rw [Bool.eq_false_iff, ne_eq, beq_zero_iff_place64 hnumber, hplace]
    cases (Sign.positive / s) <;> simp only [Sign.apply] <;> omega

end Quotients

end NeighborSearch
