import NeighborSearch.Decimal.Basic
import NeighborSearch.Proofs.Ranking
import NeighborSearch.Proofs.Rounding

/-!
# Reading decimals

Reading a decimal rounds its exact value once. So decimals of the same value are read as the same
number, and a decimal whose value is a number of binary64 is read as that number.
-/

namespace NeighborSearch

open Float.Model (Format UnpackedFloat)
open Float.Model.UnpackedFloat

variable {format : Format}

/-! ## Products and quotients -/

/-- A whole part and how a fraction compares with one half stand for the sum. -/
theorem standsFor_fraction (n : Nat) {num den : Nat} (h : num < den) :
    StandsFor (ExtendedMantissa.ofMantissaAndAccuracy n (accuracyOfFraction num den))
      (n + num / den) := by
  have hden : (0 : ℚ) < den := by exact_mod_cast Nat.zero_lt_of_lt h
  have hlt : (num : ℚ) / den < 1 := by
    rw [div_lt_one hden]
    exact_mod_cast h
  have hnonneg : (0 : ℚ) ≤ num / den := by positivity
  rw [accuracyOfFraction]
  split_ifs with hzero
  · rw [hzero, Nat.cast_zero, zero_div, add_zero]
    exact standsFor_exact n
  · have hpos : (0 : ℚ) < num / den := div_pos (by exact_mod_cast Nat.pos_of_ne_zero hzero) hden
    rcases lt_trichotomy (2 * num) den with hhalf | hhalf | hhalf
    · have hless : (num : ℚ) / den < 1 / 2 := by
        rw [div_lt_div_iff₀ hden (by norm_num)]
        exact_mod_cast (by omega : num * 2 < 1 * den)
      rw [compare_lt_iff_lt.mpr hhalf]
      exact ⟨num / den, hnonneg, hless, by simp [ExtendedMantissa.ofMantissaAndAccuracy, hpos.ne'],
        by simp [ExtendedMantissa.ofMantissaAndAccuracy]⟩
    · have hequal : (num : ℚ) / den = 1 / 2 := by
        rw [div_eq_div_iff hden.ne' (by norm_num)]
        exact_mod_cast (by omega : num * 2 = 1 * den)
      rw [compare_eq_iff_eq.mpr hhalf, hequal]
      exact ⟨0, le_rfl, by norm_num, by simp [ExtendedMantissa.ofMantissaAndAccuracy],
        by simp [ExtendedMantissa.ofMantissaAndAccuracy]⟩
    · have hmore : 1 / 2 < (num : ℚ) / den := by
        rw [div_lt_div_iff₀ (by norm_num) hden]
        exact_mod_cast (by omega : 1 * den < num * 2)
      rw [compare_gt_iff_gt.mpr hhalf]
      refine ⟨num / den - 1 / 2, by linarith, by linarith, ?_, ?_⟩
      · simp only [ExtendedMantissa.ofMantissaAndAccuracy, true_iff, ne_eq, sub_eq_zero]
        exact hmore.ne'
      · simp only [ExtendedMantissa.ofMantissaAndAccuracy, if_true]
        ring

/-- A product is rounded once, provided that it has more digits than the format. -/
theorem mul_spec (s s' : Sign) {m m' : Nat} {e e' : Int} (hm : 0 < m) (hm' : 0 < m')
    (he : e + e' ≤ exponentFor format (m * 2 ^ e * (m' * 2 ^ e'))) :
    ∃ p, RoundsTo format (m * 2 ^ e * (m' * 2 ^ e')) p ∧
      StandsAt format (s * s') p (mul format (.finite s m e hm) (.finite s' m' e' hm')) := by
  have hvalue : (m : ℚ) * 2 ^ e * (m' * 2 ^ e') = (m * m' : ℕ) * 2 ^ (e + e') := by
    rw [zpow_add₀ (by norm_num)]
    push_cast
    ring
  have hpos : 0 < m * m' := Nat.mul_pos hm hm'
  rw [hvalue] at he ⊢
  refine roundWithAccuracy_spec (s * s') (by positivity) ?_ he ?_
  · rw [mul_div_assoc, div_self (by positivity), mul_one]
    exact standsFor_exact _
  · exact (exponentFor_eq_roundingExponent hpos le_rfl
      (mul_lt_mul_of_pos_right (lt_add_one _) (by positivity))).symm

/-- The logarithm of a quotient, up to one. -/
theorem log_quotient_bounds {m m' : Nat} (hm : 0 < m) (hm' : 0 < m') (e e' : Int) :
    (m.log2 : Int) + e - (m'.log2 + e') - 1 ≤ Int.log 2 ((m : ℚ) * 2 ^ e / (m' * 2 ^ e')) := by
  have hv : (0 : ℚ) < m * 2 ^ e / (m' * 2 ^ e') := by positivity
  have hlow : ((2 ^ m.log2 : ℕ) : ℚ) ≤ m := by exact_mod_cast Nat.log2_self_le hm.ne'
  have hhigh : (m' : ℚ) ≤ ((2 ^ (m'.log2 + 1) : ℕ) : ℚ) := by exact_mod_cast Nat.lt_log2_self.le
  push_cast at hlow hhigh
  rw [← Int.zpow_le_iff_le_log (by norm_num) hv, le_div_iff₀ (by positivity)]
  push_cast
  calc (2 : ℚ) ^ ((m.log2 : Int) + e - (m'.log2 + e') - 1) * (m' * 2 ^ e')
      ≤ 2 ^ ((m.log2 : Int) + e - (m'.log2 + e') - 1) * (2 ^ (m'.log2 + 1) * 2 ^ e') := by gcongr
    _ = 2 ^ ((m.log2 : Int) + e) := by
        rw [← zpow_natCast, ← zpow_add₀ (by norm_num), ← zpow_add₀ (by norm_num)]
        congr 1
        push_cast
        ring
    _ = 2 ^ m.log2 * 2 ^ e := by rw [zpow_add₀ (by norm_num), zpow_natCast]
    _ ≤ m * 2 ^ e := by gcongr

/-- A quotient in units of `2 ^ t` is a whole quotient and a fraction of one unit. -/
theorem quotient_eq {m m' : Nat} {e e' t : Int} (hm' : 0 < m') (ht : t ≤ e - e') :
    (m : ℚ) * 2 ^ e / (m' * 2 ^ e') / 2 ^ t
      = (m * 2 ^ (e - e' - t).toNat / m' : ℕ)
        + (m * 2 ^ (e - e' - t).toNat % m' : ℕ) / (m' : ℚ) := by
  have hm'q : (m' : ℚ) ≠ 0 := by positivity
  have hsplit : (m' : ℚ) * (m * 2 ^ (e - e' - t).toNat / m' : ℕ)
      + (m * 2 ^ (e - e' - t).toNat % m' : ℕ) = (m * 2 ^ (e - e' - t).toNat : ℕ) := by
    exact_mod_cast Nat.div_add_mod _ m'
  have hshift : (2 : ℚ) ^ e / 2 ^ e' / 2 ^ t = 2 ^ (e - e' - t).toNat := by
    rw [← zpow_natCast, ← zpow_sub₀ (by norm_num), ← zpow_sub₀ (by norm_num)]
    congr 1
    omega
  calc (m : ℚ) * 2 ^ e / (m' * 2 ^ e') / 2 ^ t = m * (2 ^ e / 2 ^ e' / 2 ^ t) / m' := by field_simp
    _ = (m * 2 ^ (e - e' - t).toNat : ℕ) / m' := by
        rw [hshift]
        push_cast
        rfl
    _ = _ := by
        rw [← hsplit]
        field_simp

/-- A quotient is rounded once. -/
theorem div_spec (s s' : Sign) {m m' : Nat} {e e' : Int} (hm : 0 < m) (hm' : 0 < m') :
    ∃ p, RoundsTo format (m * 2 ^ e / (m' * 2 ^ e')) p ∧
      StandsAt format (s / s') p (div format (.finite s m e hm) (.finite s' m' e' hm')) := by
  have hv : (0 : ℚ) < m * 2 ^ e / (m' * 2 ^ e') := by positivity
  have hlog := log_quotient_bounds hm hm' e e'
  have hexp := exponentFor_eq format (m * 2 ^ e / (m' * 2 ^ e'))
  have hbits := mantissaBits_eq format
  have htotal : Float.Model.totalExponent m e - Float.Model.totalExponent m' e'
      = m.log2 + e - (m'.log2 + e') := by
    simp only [Float.Model.totalExponent]
    ring
  have hmax : format.targetExponent (m.log2 + e - (m'.log2 + e'))
      = max (m.log2 + e - (m'.log2 + e') - format.mantissaBits) format.minExponent := rfl
  have hdiv : div format (.finite s m e hm) (.finite s' m' e' hm')
      = roundWithAccuracy format (s / s') (divCore format m e m' e').1
        (divCore format m e m' e').2.1 (divCore format m e m' e').2.2 := rfl
  rw [hdiv]
  simp only [divCore, htotal, Nat.shiftLeft_eq]
  set v : ℚ := m * 2 ^ e / (m' * 2 ^ e')
  set t := min (e - e') (format.targetExponent (m.log2 + e - (m'.log2 + e'))) with ht
  have hquotient : v / 2 ^ t = _ := quotient_eq hm' (min_le_left _ _)
  set num := m * 2 ^ (e - e' - t).toNat
  have hfraction : ((num % m' : ℕ) : ℚ) / m' < 1 := by
    rw [div_lt_one (by positivity)]
    exact_mod_cast Nat.mod_lt num hm'
  have hlow : ((num / m' : ℕ) : ℚ) * 2 ^ t ≤ v := by
    rw [← le_div_iff₀ (by positivity), hquotient]
    exact le_add_of_nonneg_right (by positivity)
  have hhigh : v < ((num / m' : ℕ) + 1) * 2 ^ t := by
    rw [← div_lt_iff₀ (by positivity), hquotient]
    linarith
  refine roundWithAccuracy_spec (s / s') hv ?_ (by omega) ?_
  · rw [hquotient]
    exact standsFor_fraction _ (Nat.mod_lt num hm')
  · rcases Nat.eq_zero_or_pos (num / m') with hzero | hpos
    · -- Nothing is left of a quotient only where it lies below the least exponent.
      have hless : Int.log 2 v < t := by
        rw [← Int.lt_zpow_iff_log_lt (by norm_num) hv]
        push_cast
        simpa [hzero] using hhigh
      have hround : roundingExponent format 0 t
          = max (0 + 1 + t - format.mantissaBits) format.minExponent := rfl
      rw [hzero, hround]
      omega
    · exact (exponentFor_eq_roundingExponent hpos hlow hhigh).symm

/-! ## Decimals -/

/-- The exact value of a decimal. -/
def Decimal.value (d : Decimal) : ℚ := d.digits * 10 ^ d.exponent

theorem exists_roundsTo (format : Format) {v : ℚ} (hv : 0 < v) : ∃ p, RoundsTo format v p := by
  have hnum : ((v.num.toNat : ℕ) : ℚ) = v.num := by
    exact_mod_cast Int.toNat_of_nonneg (Rat.num_pos.mpr hv).le
  have hpos : 0 < v.num.toNat := by
    have := Rat.num_pos.mpr hv
    omega
  obtain ⟨p, hp, -⟩ := @div_spec format .positive .positive _ _ 0 0 hpos v.den_pos
  rw [zpow_zero, mul_one, mul_one, hnum, Rat.num_div_den] at hp
  exact ⟨p, hp⟩

/-- What is at least `2 ^ 1024` is rounded to infinity. -/
theorem RoundsTo.overflow {v : ℚ} {p : Int} (h : RoundsTo .binary64 v p)
    (hv : 2 ^ (1024 : Int) ≤ v) : infinityPlace .binary64 ≤ p := by
  have hnormal : Normalised .binary64 (2 ^ 52) 972 := ⟨by decide, by decide, Or.inr (by decide)⟩
  have hplace : finitePlace .binary64 (2 ^ 52) 972 = infinityPlace .binary64 := by decide
  rw [← hplace]
  refine (hnormal.roundsTo (by decide)).mono h (by positivity) (le_trans (le_of_eq ?_) hv)
  rw [Nat.cast_pow, Nat.cast_ofNat, ← zpow_natCast, ← zpow_add₀ (by norm_num)]
  rfl

/-- What is at most `2 ^ -1075` is rounded to zero. -/
theorem RoundsTo.underflow {v : ℚ} {p : Int} (h : RoundsTo .binary64 v p) (hpos : 0 < v)
    (hv : v ≤ 2 ^ (-1075 : Int)) : p = 0 := by
  have hlog : Int.log 2 ((2 : ℚ) ^ (-1075 : Int)) = -1075 := by
    exact_mod_cast Int.log_zpow (R := ℚ) (b := 2) (by norm_num) (-1075)
  have hexp : exponentFor .binary64 (2 ^ (-1075 : Int)) = -1074 := by
    rw [exponentFor_eq, hlog]
    decide
  have hhalf : (2 : ℚ) ^ (-1075 : Int) / 2 ^ (-1074 : Int) = 1 / 2 := by
    rw [← zpow_sub₀ (by norm_num)]
    norm_num
  have hzero : RoundsTo .binary64 (2 ^ (-1075 : Int)) 0 := by
    refine ⟨0, ?_, by rw [hexp]; decide⟩
    rw [hexp, hhalf]
    exact ⟨by norm_num, fun _ => by decide⟩
  exact le_antisymm (h.mono hzero hpos hv) h.nonneg

/-- `x` is what rounding the positive number `v` gives. -/
structure Nearest64 (v : ℚ) (x : Float) : Prop where
  number : x.isNaN = false
  unsigned : Unsigned x
  place : ∀ p, RoundsTo .binary64 v p → place64 x = min p (infinityPlace .binary64)

theorem unsigned_of_place_pos {x : Float} (h : 0 < place64 x) : Unsigned x := by
  intro hnan
  by_contra hsign
  rw [place64_eq hnan, if_neg hsign] at h
  omega

theorem StandsAt.unsigned_pack {p : Int} {u : UnpackedFloat}
    (h : StandsAt .binary64 .positive p u) : Unsigned (.ofModel (.pack u)) := by
  have hplace := (h.place_pack (by decide)).2
  change place64 (.ofModel (.pack u)) = min p (infinityPlace .binary64) at hplace
  cases h with
  | zero hp => exact fun _ => by decide
  | finite hm h hp =>
    refine unsigned_of_place_pos ?_
    rw [hplace, ← hp]
    exact lt_min (h.place_pos hm) (infinityPlace_pos _)

theorem nearest64_pack {v : ℚ} (hv : 0 < v) {p : Int} (hp : RoundsTo .binary64 v p)
    {u : UnpackedFloat} (hu : StandsAt .binary64 .positive p u) :
    Nearest64 v (.ofModel (.pack u)) := by
  obtain ⟨hnan, hplace⟩ := hu.place_pack (by decide)
  refine ⟨hnan, hu.unsigned_pack, ?_⟩
  intro q hq
  rw [hq.unique hp hv]
  exact hplace

theorem nearest64_infinity {v : ℚ} (hv : 2 ^ (1024 : Int) ≤ v) :
    Nearest64 v (.ofModel (.pack (.infinity .positive))) := by
  refine ⟨by decide, fun _ => by decide, ?_⟩
  intro p hp
  rw [min_eq_right (hp.overflow hv)]
  decide

theorem nearest64_zero {v : ℚ} (hpos : 0 < v) (hv : v ≤ 2 ^ (-1075 : Int)) :
    Nearest64 v (.ofModel (.pack (.zero .positive))) := by
  refine ⟨by decide, fun _ => by decide, ?_⟩
  intro p hp
  rw [hp.underflow hpos hv]
  decide

/-- An exponent can be so large that the digits do not matter. -/
theorem two_pow_le_scientific {m : Nat} {e : Int} (hm : 0 < m) (he : 2048 < e) :
    (2 : ℚ) ^ (1024 : Int) ≤ m * 10 ^ e :=
  calc (2 : ℚ) ^ (1024 : Int) ≤ 10 ^ (1024 : Int) :=
        zpow_le_zpow_left₀ (by norm_num) (by norm_num) (by norm_num)
    _ ≤ 10 ^ e := zpow_le_zpow_right₀ (by norm_num) (by omega)
    _ ≤ m * 10 ^ e := le_mul_of_one_le_left (by positivity) (by exact_mod_cast hm)

/-- An exponent can be so small that the number of digits does not make up for it. -/
theorem scientific_le_two_pow {m : Nat} {e : Int} (he : e < -(2048 + (m.log2 : Int))) :
    m * (10 : ℚ) ^ e ≤ 2 ^ (-1075 : Int) := by
  have hdigits : (m : ℚ) ≤ 10 ^ (m.log2 + 1) := by
    have hhigh : m ≤ 2 ^ (m.log2 + 1) := Nat.lt_log2_self.le
    exact_mod_cast hhigh.trans (Nat.pow_le_pow_left (by norm_num) _)
  calc (m : ℚ) * 10 ^ e ≤ 10 ^ (m.log2 + 1) * 10 ^ e := by gcongr
    _ = 10 ^ ((m.log2 : Int) + 1 + e) := by
        rw [← zpow_natCast, ← zpow_add₀ (by norm_num)]
        push_cast
        rfl
    _ ≤ 10 ^ (-1075 : Int) := zpow_le_zpow_right₀ (by norm_num) (by omega)
    _ ≤ 2 ^ (-1075 : Int) := by
        rw [zpow_neg, zpow_neg]
        exact inv_anti₀ (by positivity)
          (zpow_le_zpow_left₀ (by norm_num) (by norm_num) (by norm_num))

/-- A decimal is read as the binary64 number nearest to it. -/
theorem nearest64_ofScientific {m : Nat} (hm : 0 < m) (e : Int) :
    Nearest64 (m * 10 ^ e) (.ofModel (.pack (.ofScientific .binary64 m e))) := by
  have hv : (0 : ℚ) < m * 10 ^ e := by positivity
  unfold UnpackedFloat.ofScientific
  rw [dif_neg hm.ne']
  split_ifs with hlarge hsmall hsign
  · exact nearest64_infinity (two_pow_le_scientific hm hlarge)
  · exact nearest64_zero hv (scientific_le_two_pow hsmall)
  · have hshifted : 0 < m <<< Format.mantissaBits .binary64 := by
      rw [Nat.shiftLeft_eq]
      positivity
    have hten : 0 < 10 ^ e.toNat := Nat.pow_pos (by norm_num)
    have hpower : ((10 ^ e.toNat : ℕ) : ℚ) = 10 ^ e := by
      rw [Nat.cast_pow, Nat.cast_ofNat, ← zpow_natCast, Int.toNat_of_nonneg hsign]
    have hshift : ((m <<< Format.mantissaBits .binary64 : ℕ) : ℚ)
        * 2 ^ (-(Format.mantissaBits .binary64 : Int)) = m := by
      rw [Nat.shiftLeft_eq, zpow_neg, zpow_natCast]
      push_cast
      field_simp
    have hvalue : ((m <<< Format.mantissaBits .binary64 : ℕ) : ℚ)
        * 2 ^ (-(Format.mantissaBits .binary64 : Int)) * ((10 ^ e.toNat : ℕ) * 2 ^ (0 : Int))
        = m * 10 ^ e := by
      rw [hshift, hpower, zpow_zero, mul_one]
    -- The shift gives a whole number more digits than the format has.
    have hlog : 0 ≤ Int.log 2 ((m : ℚ) * 10 ^ e) := by
      rw [← Int.zpow_le_iff_le_log (by norm_num) hv, zpow_zero, ← hpower]
      exact_mod_cast Nat.mul_pos hm hten
    have hexp := exponentFor_eq .binary64 ((m : ℚ) * 10 ^ e)
    obtain ⟨p, hp, hstands⟩ := @mul_spec .binary64 .positive .positive _ _
      (-(Format.mantissaBits .binary64 : Int)) 0 hshifted hten (by rw [hvalue]; omega)
    rw [hvalue] at hp
    exact nearest64_pack hv hp hstands
  · have hten : 0 < 10 ^ (-e).toNat := Nat.pow_pos (by norm_num)
    have hvalue : (m : ℚ) * 2 ^ (0 : Int) / ((10 ^ (-e).toNat : ℕ) * 2 ^ (0 : Int))
        = m * 10 ^ e := by
      rw [Nat.cast_pow, Nat.cast_ofNat, ← zpow_natCast, Int.toNat_of_nonneg (by omega), zpow_neg]
      field_simp
    obtain ⟨p, hp, hstands⟩ := @div_spec .binary64 .positive .positive _ _ 0 0 hm hten
    rw [hvalue] at hp
    exact nearest64_pack hv hp hstands

/-- There is one number that rounding gives. -/
theorem Nearest64.eq {v : ℚ} {x y : Float} (hx : Nearest64 v x) (hy : Nearest64 v y) (hv : 0 < v) :
    x = y := by
  obtain ⟨p, hp⟩ := exists_roundsTo .binary64 hv
  refine orderKey_injective ?_
  rw [hx.unsigned.orderKey_eq hx.number, hy.unsigned.orderKey_eq hy.number, hx.place p hp,
    hy.place p hp]

/-- A positive number of the format is rounded to itself. -/
theorem nearest64_self {x : Float} {m : Nat} {e : Int} {hm : 0 < m}
    (hx : x.toModel.unpack = .finite .positive m e hm) : Nearest64 (m * 2 ^ e) x := by
  have hrepresentable := representable64 x
  rw [hx] at hrepresentable
  obtain ⟨hnormal, hlt⟩ := hrepresentable
  have hplace : place64 x = finitePlace .binary64 m e := by
    rw [place64, hx]
    rfl
  refine ⟨?_, unsigned_of_place_pos ?_, ?_⟩
  · change x.toModel.unpack.isNaN = false
    rw [hx]
    rfl
  · rw [hplace]
    exact hnormal.place_pos hm
  · intro p hp
    rw [hplace, hp.unique (hnormal.roundsTo hm) (by positivity), min_eq_left hlt.le]

namespace Decimal

theorem value_eq_zero_iff {d : Decimal} : d.value = 0 ↔ d.digits = 0 := by
  have hten : (10 : ℚ) ^ d.exponent ≠ 0 := by positivity
  simp [value, hten]

theorem value_pos {d : Decimal} (hd : 0 < d.digits) : 0 < d.value := by
  unfold value
  positivity

/-- Reading rounds the exact value. -/
theorem nearest64_toFloat {d : Decimal} (hd : 0 < d.digits) : Nearest64 d.value d.toFloat :=
  nearest64_ofScientific hd d.exponent

theorem toFloat_of_digits_eq_zero {d : Decimal} (hd : d.digits = 0) : d.toFloat = 0 := by
  obtain ⟨m, e⟩ := d
  obtain rfl : m = 0 := hd
  rfl

/-- What is read depends on the value only. -/
theorem toFloat_congr {d d' : Decimal} (h : d.value = d'.value) : d.toFloat = d'.toFloat := by
  rcases Nat.eq_zero_or_pos d.digits with hzero | hpos
  · have hzero' : d'.digits = 0 := by
      rw [← value_eq_zero_iff, ← h, value_eq_zero_iff, hzero]
    rw [toFloat_of_digits_eq_zero hzero, toFloat_of_digits_eq_zero hzero']
  · have hpos' : 0 < d'.digits := by
      rw [Nat.pos_iff_ne_zero, Ne, ← value_eq_zero_iff, ← h, value_eq_zero_iff]
      exact hpos.ne'
    exact (nearest64_toFloat hpos).eq (h ▸ nearest64_toFloat hpos') (value_pos hpos)

/-- A number that is written out in full is read back. -/
theorem toFloat_eq {d : Decimal} {x : Float} {m : Nat} {e : Int} {hm : 0 < m}
    (hx : x.toModel.unpack = .finite .positive m e hm) (h : d.value = m * 2 ^ e) :
    d.toFloat = x := by
  have hpos : 0 < d.value := by
    rw [h]
    positivity
  have hdigits : 0 < d.digits := by
    rw [Nat.pos_iff_ne_zero, Ne, ← value_eq_zero_iff]
    exact hpos.ne'
  exact (nearest64_toFloat hdigits).eq (h ▸ nearest64_self hx) hpos

end Decimal

end NeighborSearch
