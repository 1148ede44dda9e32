import NeighborSearch.Proofs.Format

/-!
# Rounding

A number that does not fit a format is replaced by the nearest one that does, a tie going to the
even significand. Rounding keeps the order of numbers, and so does narrowing from binary64 to
binary32: `narrow_le_narrow`.
-/

namespace NeighborSearch

open Float.Model (Format UnpackedFloat)
open Float.Model.UnpackedFloat

variable {format : Format}

/-! ## The nearest integer -/

/-- `n` is the integer nearest to `v`, the even one if there are two. -/
structure NearestEven (v : ℚ) (n : ℕ) : Prop where
  near : |v - n| ≤ 1 / 2
  tie : |v - n| = 1 / 2 → Even n

theorem NearestEven.mono {v w : ℚ} {n k : ℕ} (hv : NearestEven v n) (hw : NearestEven w k)
    (h : v ≤ w) : n ≤ k := by
  by_contra hlt
  have hstep : ((k + 1 : ℕ) : ℚ) ≤ n := by exact_mod_cast Nat.not_le.mp hlt
  push_cast at hstep
  have hvn := (abs_le.mp hv.near).1
  have hwk := (abs_le.mp hw.near).2
  -- Both numbers lie half-way between `k` and `k + 1 = n`, which cannot both be even.
  have hn : n = k + 1 := by
    have : (n : ℚ) = ((k + 1 : ℕ) : ℚ) := by push_cast; linarith
    exact_mod_cast this
  have hnq : (n : ℚ) = k + 1 := by rw [hn]; push_cast; rfl
  have hneven : Even n := hv.tie (by
    rw [show v - n = -(1 / 2) by linarith]
    norm_num)
  have hkeven : Even k := hw.tie (by
    rw [show w - k = 1 / 2 by linarith]
    norm_num)
  rw [hn, Nat.even_add_one] at hneven
  exact hneven hkeven

theorem nearestEven_natCast (n : ℕ) : NearestEven n n :=
  ⟨by norm_num, by norm_num⟩

/-- A significand with its two residual bits stands for a number: the first bit counts one half, and
the second one says whether anything is left below that. -/
def StandsFor (em : ExtendedMantissa) (v : ℚ) : Prop :=
  ∃ rest : ℚ, 0 ≤ rest ∧ rest < 1 / 2 ∧ (em.stickyBit = true ↔ rest ≠ 0) ∧
    v = em.mantissa + (if em.roundBit then 1 / 2 else 0) + rest

theorem standsFor_exact (m : ℕ) :
    StandsFor (ExtendedMantissa.ofMantissaAndAccuracy m .exact) m :=
  ⟨0, by norm_num, by norm_num, by simp [ExtendedMantissa.ofMantissaAndAccuracy],
    by simp [ExtendedMantissa.ofMantissaAndAccuracy]⟩

theorem StandsFor.shiftRightOne {em : ExtendedMantissa} {v : ℚ} (h : StandsFor em v) :
    StandsFor em.shiftRightOne (v / 2) := by
  obtain ⟨rest, hnonneg, hlt, hsticky, hv⟩ := h
  have hmod : em.mantissa % 2 = 0 ∨ em.mantissa % 2 = 1 := by omega
  have hsplit : (em.mantissa : ℚ) = 2 * (em.mantissa / 2 : ℕ) + (em.mantissa % 2 : ℕ) := by
    exact_mod_cast (Nat.div_add_mod em.mantissa 2).symm
  refine ⟨(if em.roundBit then 1 / 4 else 0) + rest / 2, ?_, ?_, ?_, ?_⟩
  · split_ifs <;> linarith
  · split_ifs <;> linarith
  · simp only [ExtendedMantissa.shiftRightOne, Bool.or_eq_true, hsticky]
    cases em.roundBit with
    | true =>
      simp only [if_true, true_or, true_iff]
      intro h
      linarith
    | false => simp
  · rw [hv, hsplit]
    simp only [ExtendedMantissa.shiftRightOne]
    rcases hmod with hm | hm <;> simp only [hm] <;> cases em.roundBit <;> simp <;> ring

theorem StandsFor.shiftRight {em : ExtendedMantissa} {v : ℚ} (h : StandsFor em v) (k : ℕ) :
    StandsFor (em >>> k) (v / 2 ^ k) := by
  change StandsFor (k.repeat ExtendedMantissa.shiftRightOne em) _
  induction k with
  | zero => simpa [Nat.repeat] using h
  | succ k ih =>
    rw [Nat.repeat, pow_succ, ← div_div]
    exact ih.shiftRightOne

/-- What stands for a number knows its nearest integer. -/
theorem StandsFor.nearestEven {em : ExtendedMantissa} {v : ℚ} (h : StandsFor em v) :
    NearestEven v em.roundedMantissa := by
  obtain ⟨rest, hnonneg, hlt, hsticky, rfl⟩ := h
  obtain ⟨m, roundBit, stickyBit⟩ := em
  cases roundBit <;> cases stickyBit <;>
    simp only [ExtendedMantissa.roundedMantissa, ExtendedMantissa.accuracy,
      Accuracy.roundToNearestEven, Bool.false_eq_true, if_false, if_true, false_iff, true_iff,
      not_not] at hsticky ⊢
  · subst hsticky
    simpa using nearestEven_natCast m
  · have habs : |(m : ℚ) + 0 + rest - m| = rest := by
      rw [show (m : ℚ) + 0 + rest - m = rest by ring, abs_of_nonneg hnonneg]
    exact ⟨by rw [habs]; exact hlt.le, fun h => absurd (habs ▸ h) hlt.ne⟩
  · subst hsticky
    have heven : Even (m + m % 2) := by
      rw [Nat.even_iff]
      omega
    refine ⟨?_, fun _ => heven⟩
    rcases (by omega : m % 2 = 0 ∨ m % 2 = 1) with hm | hm <;> rw [hm] <;> push_cast
    · rw [show (m : ℚ) + 1 / 2 + 0 - (m + 0) = 1 / 2 by ring, abs_of_pos (by norm_num)]
    · rw [show (m : ℚ) + 1 / 2 + 0 - (m + 1) = -(1 / 2) by ring, abs_neg, abs_of_pos (by norm_num)]
  · have hpos : 0 < rest := lt_of_le_of_ne hnonneg (Ne.symm hsticky)
    have habs : |(m : ℚ) + 1 / 2 + rest - ((m + 1 : ℕ) : ℚ)| = 1 / 2 - rest := by
      rw [show (m : ℚ) + 1 / 2 + rest - ((m + 1 : ℕ) : ℚ) = -(1 / 2 - rest) by push_cast; ring,
        abs_neg, abs_of_pos (by linarith)]
    exact ⟨by rw [habs]; linarith, fun h => absurd (habs ▸ h) (by linarith)⟩

/-! ## Rounding to a format -/

/-- The exponent to which a number is rounded. -/
def roundingExponent (format : Format) (m : Nat) (e : Int) : Int :=
  format.targetExponent (Float.Model.totalExponent m e)

theorem minExponent_le_roundingExponent (format : Format) (m : Nat) (e : Int) :
    format.minExponent ≤ roundingExponent format m e := le_max_right _ _

theorem mantissaBits_eq (format : Format) :
    (format.mantissaBits : Int) = format.mantissaBitsWithoutImplicit + 1 := by
  simp [Format.mantissaBits, Int.add_comm]

/-- The shape of a rounding result: a normalised number, or zero, that stands at a given place. -/
inductive StandsAt (format : Format) (s : Sign) (p : Int) : UnpackedFloat → Prop
  | zero (hp : p = 0) : StandsAt format s p (.zero s)
  | finite {m : Nat} {e : Int} (hm : 0 < m) (h : Normalised format m e)
      (hp : finitePlace format m e = p) : StandsAt format s p (.finite s m e hm)

/-- Rounding a significand up to the next power of two only moves the exponent, not the place. -/
theorem standsAt_carry (s : Sign) {n : Nat} {t : Int} (hleast : format.minExponent ≤ t)
    (hfits : n ≤ 2 * binade format) (hleading : t = format.minExponent ∨ binade format ≤ n) :
    StandsAt format s (finitePlace format n t)
      (let final := shiftToTargetExponent format n t .exact
       if h : final.1.mantissa = 0 then .zero s
       else .finite s final.1.mantissa final.2 (Nat.pos_of_ne_zero h)) := by
  have hbits := mantissaBits_eq format
  have hbinade := binade_pos format
  rcases hfits.lt_or_eq with hlt | rfl
  · have hlog : n.log2 ≤ format.mantissaBitsWithoutImplicit := by
      rcases Nat.eq_zero_or_pos n with rfl | hn
      · simp
      · rw [← Nat.lt_succ_iff, Nat.log2_lt hn.ne', pow_succ]
        unfold binade at hlt
        omega
    have hzero : (format.targetExponent (Float.Model.totalExponent n t) - t).toNat = 0 := by
      simp only [Format.targetExponent, Float.Model.totalExponent]
      omega
    have hfinal : shiftToTargetExponent format n t .exact
        = (ExtendedMantissa.ofMantissaAndAccuracy n .exact, t) := by
      simp [shiftToTargetExponent, shiftToExponent, hzero, HShiftRight.hShiftRight, Nat.repeat]
    simp only [hfinal, ExtendedMantissa.ofMantissaAndAccuracy]
    split_ifs with hn
    · subst hn
      have ht : t = format.minExponent := hleading.resolve_right (by omega)
      exact .zero (by rw [ht, finitePlace_subnormal]; rfl)
    · exact .finite _ ⟨hleast, hlt, hleading⟩ rfl
  · have hlog : (2 * binade format).log2 = format.mantissaBitsWithoutImplicit + 1 := by
      rw [binade, ← pow_succ', Nat.log2_two_pow]
    have hone : (format.targetExponent (Float.Model.totalExponent (2 * binade format) t) - t).toNat
        = 1 := by
      simp only [Format.targetExponent, Float.Model.totalExponent, hlog]
      omega
    have hfinal : (shiftToTargetExponent format (2 * binade format) t .exact).1.mantissa
        = binade format ∧ (shiftToTargetExponent format (2 * binade format) t .exact).2 = t + 1 := by
      simp [shiftToTargetExponent, shiftToExponent, hone, HShiftRight.hShiftRight, Nat.repeat,
        ExtendedMantissa.shiftRightOne, ExtendedMantissa.ofMantissaAndAccuracy]
    simp only [hfinal.1, hfinal.2, hbinade.ne', dif_neg, not_false_eq_true]
    refine .finite _ ⟨by omega, by omega, Or.inr le_rfl⟩ ?_
    unfold finitePlace
    push_cast
    ring

/-- The exponent to which a positive number is rounded. -/
def exponentFor (format : Format) (v : ℚ) : Int := format.targetExponent (Int.log 2 v + 1)

/-- Rounding the positive number `v` gives the number at place `p`, if infinity is not reached: the
nearest significand is taken at the exponent for `v`, ties to even. -/
def RoundsTo (format : Format) (v : ℚ) (p : Int) : Prop :=
  ∃ n, NearestEven (v / 2 ^ exponentFor format v) n ∧
    finitePlace format n (exponentFor format v) = p

theorem exponentFor_eq (format : Format) (v : ℚ) :
    exponentFor format v = max (Int.log 2 v + 1 - format.mantissaBits) format.minExponent := rfl

theorem minExponent_le_exponentFor (format : Format) (v : ℚ) :
    format.minExponent ≤ exponentFor format v := le_max_right _ _

/-- A positive number lies in the binade of its logarithm. -/
theorem log_bounds {v : ℚ} (hv : 0 < v) : 2 ^ Int.log 2 v ≤ v ∧ v < 2 ^ (Int.log 2 v + 1) := by
  have hlow := Int.zpow_log_le_self (by norm_num : 1 < 2) hv
  have hhigh := Int.lt_zpow_succ_log_self (by norm_num : 1 < 2) v
  exact_mod_cast And.intro hlow hhigh

theorem log_eq {v : ℚ} {k : Int} (hlow : 2 ^ k ≤ v) (hhigh : v < 2 ^ (k + 1)) : Int.log 2 v = k := by
  have hv : 0 < v := lt_of_lt_of_le (by positivity) hlow
  have hle : k ≤ Int.log 2 v := by
    rw [← Int.zpow_le_iff_le_log (by norm_num) hv]
    exact_mod_cast hlow
  have hlt : Int.log 2 v < k + 1 := by
    rw [← Int.lt_zpow_iff_log_lt (by norm_num) hv]
    exact_mod_cast hhigh
  omega

/-- Whatever lies between the numbers that a significand and its successor stand for has the
exponent of the significand. -/
theorem exponentFor_eq_roundingExponent {v : ℚ} {m : Nat} {e : Int} (hm : 0 < m)
    (hlow : m * 2 ^ e ≤ v) (hhigh : v < (m + 1) * 2 ^ e) :
    exponentFor format v = roundingExponent format m e := by
  have hpos : (0 : ℚ) < 2 ^ e := by positivity
  have hleast : ((2 ^ m.log2 : ℕ) : ℚ) ≤ m := by exact_mod_cast Nat.log2_self_le hm.ne'
  have hmost : (m : ℚ) + 1 ≤ ((2 ^ (m.log2 + 1) : ℕ) : ℚ) := by exact_mod_cast Nat.lt_log2_self
  push_cast at hleast hmost
  have hlog : Int.log 2 v = m.log2 + e := by
    refine log_eq ?_ ?_
    · rw [zpow_add₀ (by norm_num), zpow_natCast]
      exact (mul_le_mul_of_nonneg_right hleast hpos.le).trans hlow
    · rw [show (m.log2 : Int) + e + 1 = ((m.log2 + 1 : ℕ) : Int) + e by push_cast; ring,
        zpow_add₀ (by norm_num), zpow_natCast]
      exact hhigh.trans_le (mul_le_mul_of_nonneg_right hmost hpos.le)
  rw [exponentFor, hlog, roundingExponent, Float.Model.totalExponent]
  congr 1
  ring

/-- The rounded significand fits the format, and has all its digits unless the exponent is least. -/
theorem NearestEven.rounding_bounds {v : ℚ} {n : Nat} (hv : 0 < v)
    (hn : NearestEven (v / 2 ^ exponentFor format v) n) :
    n ≤ 2 * binade format ∧
      (exponentFor format v = format.minExponent ∨ binade format ≤ n) := by
  have hexp := exponentFor_eq format v
  set t := exponentFor format v
  have hbits := mantissaBits_eq format
  obtain ⟨hlow, hhigh⟩ := log_bounds hv
  have hpos : (0 : ℚ) < 2 ^ t := by positivity
  constructor
  · refine hn.mono (nearestEven_natCast (2 * binade format)) ?_
    have hpow : ((2 * binade format : ℕ) : ℚ) = 2 ^ (format.mantissaBits : Int) := by
      rw [hbits, zpow_add₀ (by norm_num)]
      simp [binade, mul_comm]
    rw [hpow, div_le_iff₀ hpos, ← zpow_add₀ (by norm_num)]
    exact hhigh.le.trans (zpow_le_zpow_right₀ (by norm_num) (by omega))
  · by_cases hleast : t = format.minExponent
    · exact Or.inl hleast
    · refine Or.inr ((nearestEven_natCast (binade format)).mono hn ?_)
      have hpow : ((binade format : ℕ) : ℚ) = 2 ^ (format.mantissaBitsWithoutImplicit : Int) := by
        simp [binade]
      rw [hpow, le_div_iff₀ hpos, ← zpow_add₀ (by norm_num)]
      exact (zpow_le_zpow_right₀ (by norm_num) (by omega)).trans hlow

/-- Larger numbers have no smaller unit. -/
theorem exponentFor_mono (format : Format) {v w : ℚ} (hv : 0 < v) (h : v ≤ w) :
    exponentFor format v ≤ exponentFor format w := by
  have hlog := Int.log_mono_right (b := 2) hv h
  rw [exponentFor_eq, exponentFor_eq]
  omega

/-- Rounding keeps the order of numbers. -/
theorem RoundsTo.mono {v w : ℚ} {p q : Int} (hp : RoundsTo format v p) (hq : RoundsTo format w q)
    (hv : 0 < v) (h : v ≤ w) : p ≤ q := by
  obtain ⟨n, hn, rfl⟩ := hp
  obtain ⟨n', hn', rfl⟩ := hq
  obtain ⟨hfits, -⟩ := hn.rounding_bounds hv
  obtain ⟨-, hleading⟩ := hn'.rounding_bounds (hv.trans_le h)
  have hleast := minExponent_le_exponentFor format v
  rcases (exponentFor_mono format hv h).lt_or_eq with ht | ht
  · have hsteps : (exponentFor format v + 1 - format.minExponent) * (binade format : Int)
        ≤ (exponentFor format w - format.minExponent) * (binade format : Int) :=
      Int.mul_le_mul_of_nonneg_right (by omega) (by omega)
    have hsplit : (exponentFor format v + 1 - format.minExponent) * (binade format : Int)
        = (exponentFor format v - format.minExponent) * (binade format : Int)
          + binade format := by ring
    unfold finitePlace
    omega
  · have hscaled : v / 2 ^ exponentFor format v ≤ w / 2 ^ exponentFor format w := by
      rw [ht]
      exact div_le_div_of_nonneg_right h (by positivity)
    have hnn := hn.mono hn' hscaled
    unfold finitePlace
    rw [ht]
    omega

/-- Rounding has one result. -/
theorem RoundsTo.unique {v : ℚ} {p q : Int} (hp : RoundsTo format v p) (hq : RoundsTo format v q)
    (hv : 0 < v) : p = q :=
  le_antisymm (hp.mono hq hv le_rfl) (hq.mono hp hv le_rfl)

theorem finitePlace_nonneg (format : Format) (n : Nat) {e : Int} (he : format.minExponent ≤ e) :
    0 ≤ finitePlace format n e := by
  have : 0 ≤ (e - format.minExponent) * (binade format : Int) :=
    Int.mul_nonneg (by omega) (by omega)
  unfold finitePlace
  omega

theorem RoundsTo.nonneg {v : ℚ} {p : Int} (h : RoundsTo format v p) : 0 ≤ p := by
  obtain ⟨n, -, rfl⟩ := h
  exact finitePlace_nonneg format n (minExponent_le_exponentFor format v)

/-- A number of the format is rounded to itself. -/
theorem Normalised.roundsTo {m : Nat} {e : Int} (h : Normalised format m e) (hm : 0 < m) :
    RoundsTo format (m * 2 ^ e) (finitePlace format m e) := by
  have hpos : (0 : ℚ) < 2 ^ e := by positivity
  have hexp : exponentFor format (m * 2 ^ e) = e := by
    have hleast := h.least
    have hbits := mantissaBits_eq format
    have hlog : m.log2 < format.mantissaBitsWithoutImplicit + 1 := by
      rw [Nat.log2_lt hm.ne', pow_succ]
      have := h.fits
      unfold binade at this
      omega
    have hround : roundingExponent format m e
        = max (m.log2 + 1 + e - format.mantissaBits) format.minExponent := rfl
    rw [exponentFor_eq_roundingExponent hm le_rfl
      (mul_lt_mul_of_pos_right (lt_add_one (m : ℚ)) hpos), hround]
    rcases h.leading with hequal | hfull
    · omega
    · have := (Nat.le_log2 hm.ne').mpr hfull
      omega
  refine ⟨m, ?_, by rw [hexp]⟩
  rw [hexp, mul_div_assoc, div_self hpos.ne', mul_one]
  exact nearestEven_natCast m

/-- What is known of a number to within one unit of a significand is enough to round it. -/
theorem roundWithAccuracy_spec (s : Sign) {v : ℚ} (hv : 0 < v) {m : Nat} {e : Int}
    {accuracy : Accuracy}
    (hstands : StandsFor (ExtendedMantissa.ofMantissaAndAccuracy m accuracy) (v / 2 ^ e))
    (he : e ≤ exponentFor format v) (htarget : roundingExponent format m e = exponentFor format v) :
    ∃ p, RoundsTo format v p ∧ StandsAt format s p (roundWithAccuracy format s m e accuracy) := by
  have hleast := minExponent_le_exponentFor format v
  set t := exponentFor format v with ht
  have hfirst : shiftToTargetExponent format m e accuracy
      = (ExtendedMantissa.ofMantissaAndAccuracy m accuracy >>> (t - e).toNat, t) := by
    have htarget' : format.targetExponent (Float.Model.totalExponent m e) = t := htarget
    simp only [shiftToTargetExponent, shiftToExponent, htarget', Prod.mk.injEq, true_and]
    omega
  have hnear := (hstands.shiftRight (t - e).toNat).nearestEven
  have hshift : v / 2 ^ e / 2 ^ (t - e).toNat = v / 2 ^ t := by
    rw [div_div, ← zpow_natCast, ← zpow_add₀ (by norm_num)]
    congr 2
    omega
  rw [hshift, ht] at hnear
  obtain ⟨hfits, hleading⟩ := hnear.rounding_bounds hv
  refine ⟨_, ⟨_, hnear, rfl⟩, ?_⟩
  unfold roundWithAccuracy
  simp only [hfirst]
  exact standsAt_carry s hleast hfits hleading

/-- Rounding takes the nearest significand at the rounding exponent, ties to even. -/
theorem round_spec (format : Format) (s : Sign) {m : Nat} (hm : 0 < m) (e : Int) :
    ∃ p, RoundsTo format (m * 2 ^ e) p ∧ StandsAt format s p (round format s m e) := by
  have hexp : exponentFor format (m * 2 ^ e) = roundingExponent format m e :=
    exponentFor_eq_roundingExponent hm le_rfl
      (mul_lt_mul_of_pos_right (lt_add_one (m : ℚ)) (by positivity))
  -- Making the exponent smaller keeps the number and thereby its rounding exponent.
  set k := (e - roundingExponent format m e).toNat with hk
  have hvalue : (m : ℚ) * 2 ^ e = (m * 2 ^ k : ℕ) * 2 ^ (e - k) := by
    rw [zpow_sub₀ (by norm_num), zpow_natCast]
    push_cast
    field_simp
  have hround : round format s m e = roundWithAccuracy format s (m * 2 ^ k) (e - k) .exact := by
    simp only [UnpackedFloat.round, decreaseExponent, Nat.shiftLeft_eq]
    rfl
  have hpos : 0 < m * 2 ^ k := Nat.mul_pos hm (Nat.two_pow_pos k)
  rw [hround]
  refine roundWithAccuracy_spec s (by positivity) ?_ (by omega) ?_
  · rw [hvalue, mul_div_assoc, div_self (by positivity), mul_one]
    exact standsFor_exact _
  · rw [hvalue]
    exact (exponentFor_eq_roundingExponent hpos le_rfl
      (mul_lt_mul_of_pos_right (lt_add_one _) (by positivity))).symm

/-- What stands at a place is packed to the same place, or to infinity if that comes first. -/
theorem StandsAt.place_pack {s : Sign} {p : Int} {u : UnpackedFloat} (h : StandsAt format s p u)
    (hbits : 1 < format.exponentBits) :
    (unpack format (pack format u)).isNaN = false ∧
      place format (unpack format (pack format u)) = s.apply (min p (infinityPlace format)) := by
  cases h with
  | zero hp =>
    have hinf := infinityPlace_pos format
    subst hp
    refine ⟨by simp [pack, isNaN], ?_⟩
    cases s <;> simp [pack, place, Sign.apply, hinf.le]
  | @finite m e hm h hp =>
    by_cases hlt : finitePlace format m e < infinityPlace format
    · rw [unpack_pack_finite s hm h hbits hlt, ← hp, min_eq_left hlt.le]
      exact ⟨rfl, rfl⟩
    · rw [pack_eq_packedInfinity s hm h hbits (by omega), unpack_packedInfinity, ← hp,
        min_eq_right (by omega)]
      exact ⟨rfl, rfl⟩

/-- The order of places is the order of values. -/
theorem Normalised.value_le {m m' : Nat} {e e' : Int} (h : Normalised format m e)
    (h' : Normalised format m' e') (hle : finitePlace format m e ≤ finitePlace format m' e') :
    (m : ℚ) * 2 ^ e ≤ m' * 2 ^ e' := by
  rcases lt_trichotomy e e' with he | rfl | he
  · have hleading : binade format ≤ m' := h'.leading.resolve_left (by have := h.least; omega)
    have hfits := h.fits
    have hsig : (m : ℚ) ≤ 2 * m' := by exact_mod_cast (by omega : m ≤ 2 * m')
    calc (m : ℚ) * 2 ^ e ≤ 2 * m' * 2 ^ e := by gcongr
      _ = m' * 2 ^ (e + 1) := by rw [zpow_add_one₀ (by norm_num)]; ring
      _ ≤ m' * 2 ^ e' :=
        mul_le_mul_of_nonneg_left (zpow_le_zpow_right₀ (by norm_num) (by omega)) (by positivity)
  · have hsig : m ≤ m' := by unfold finitePlace at hle; omega
    gcongr
  · have := h'.place_lt_of_exponent_lt h he
    omega

/-! ## Narrowing -/

/-- A binary64 value in binary32. -/
def narrowed (u : UnpackedFloat) : UnpackedFloat :=
  unpack .binary32 (pack .binary32 (reformat .binary32 u))

theorem unpack_narrow (x : Float) : (narrow x).toModel.unpack = narrowed x.toModel.unpack := rfl

theorem narrowed_infinity (s : Sign) : narrowed (.infinity s) = .infinity s :=
  unpack_packedInfinity s

theorem narrowed_zero (s : Sign) : narrowed (.zero s) = .zero s := unpack_packedZero

theorem narrowed_notANumber : narrowed .notANumber = .notANumber := unpack_packedNaN

/-- The distance `q` from zero of the narrowed value, given the distance `p` of the value itself. -/
inductive Narrows : Int → Int → Prop
  | zero : Narrows 0 0
  | infinity : Narrows (infinityPlace .binary64) (infinityPlace .binary32)
  | finite {m : Nat} {e p : Int} (hm : 0 < m) (h : Normalised .binary64 m e)
      (hlt : finitePlace .binary64 m e < infinityPlace .binary64)
      (hp : RoundsTo .binary32 (m * 2 ^ e) p) :
      Narrows (finitePlace .binary64 m e) (min p (infinityPlace .binary32))

/-- Narrowing stays within the places of binary32, and zero stays zero. -/
theorem Narrows.bounds {p q : Int} (h : Narrows p q) :
    0 ≤ p ∧ 0 ≤ q ∧ q ≤ infinityPlace .binary32 ∧ (p = 0 → q = 0) := by
  have hinf := infinityPlace_pos .binary32
  have hinf' := infinityPlace_pos .binary64
  cases h with
  | zero => omega
  | infinity => omega
  | finite hm h hlt hp =>
    have hpos := h.place_pos hm
    have hnonneg := hp.nonneg
    omega

theorem Narrows.mono {p p' q q' : Int} (h : Narrows p q) (h' : Narrows p' q') (hle : p ≤ p') :
    q ≤ q' := by
  have hinf := infinityPlace_pos .binary64
  cases h with
  | zero => exact h'.bounds.2.1
  | infinity =>
    cases h' with
    | zero => omega
    | infinity => exact le_rfl
    | finite hm h hlt hp => omega
  | finite hm h hlt hp =>
    cases h' with
    | zero =>
      have := h.place_pos hm
      omega
    | infinity => exact min_le_right _ _
    | finite hm' h' hlt' hp' =>
      exact min_le_min_right _ (hp.mono hp' (by positivity) (h.value_le h' hle))

/-- Narrowing keeps the sign. -/
theorem narrows_of_representable {u : UnpackedFloat} (hu : Representable .binary64 u)
    (hun : u.isNaN = false) :
    ∃ (s : Sign) (p q : Int), Narrows p q ∧ place .binary64 u = s.apply p ∧
      place .binary32 (narrowed u) = s.apply q := by
  cases u with
  | infinity s => exact ⟨s, _, _, .infinity, rfl, by rw [narrowed_infinity]; rfl⟩
  | notANumber => exact absurd hun (by decide)
  | zero s =>
    exact ⟨.positive, 0, 0, .zero, rfl, by rw [narrowed_zero]; rfl⟩
  | finite s m e hm =>
    obtain ⟨p, hp, hstands⟩ := round_spec .binary32 s hm e
    exact ⟨s, _, _, .finite hm hu.1 hu.2 hp, rfl, (hstands.place_pack (by decide)).2⟩

theorem isNaN_narrowed (u : UnpackedFloat) : (narrowed u).isNaN = u.isNaN := by
  cases u with
  | infinity s => rw [narrowed_infinity]
  | notANumber => rw [narrowed_notANumber]
  | zero s => rw [narrowed_zero]
  | finite s m e hm =>
    obtain ⟨p, -, hstands⟩ := round_spec .binary32 s hm e
    exact (hstands.place_pack (by decide)).1

/-- Narrowing neither makes nor loses NaN. -/
theorem isNaN_narrow (x : Float) : (narrow x).isNaN = x.isNaN :=
  isNaN_narrowed x.toModel.unpack

/-- Narrowing keeps the order of numbers. -/
theorem place32_narrow_mono {x y : Float} (hx : x.isNaN = false) (hy : y.isNaN = false)
    (h : place64 x ≤ place64 y) : place32 (narrow x) ≤ place32 (narrow y) := by
  obtain ⟨s, p, q, hpq, hp, hq⟩ := narrows_of_representable (representable64 x) hx
  obtain ⟨s', p', q', hpq', hp', hq'⟩ := narrows_of_representable (representable64 y) hy
  obtain ⟨hp0, hq0, -, hpq0⟩ := hpq.bounds
  obtain ⟨hp0', hq0', -, hpq0'⟩ := hpq'.bounds
  rw [place64, place64, hp, hp'] at h
  rw [place32, place32, unpack_narrow, unpack_narrow, hq, hq']
  cases s <;> cases s' <;> simp only [Sign.apply] at h ⊢
  · have := hpq'.mono hpq (by omega)
    omega
  · omega
  · have := hpq0 (by omega)
    have := hpq0' (by omega)
    omega
  · exact hpq.mono hpq' h

/-- Narrowing keeps the order of numbers. -/
theorem narrow_le_narrow {x y : Float} (hx : x.isNaN = false) (hy : y.isNaN = false)
    (h : x ≤ y) : narrow x ≤ narrow y := by
  rw [le_iff_place32 (by rw [isNaN_narrow, hx]) (by rw [isNaN_narrow, hy])]
  exact place32_narrow_mono hx hy ((le_iff_place64 hx hy).mp h)

end NeighborSearch
