import NeighborSearch.Proofs.FiniteNumbers

/-!
# Square roots

A square root is rounded once, like a product or a quotient. It need not be a rational number, so it
is caught between two of them that are rounded alike: the square of the one is not above the number
and the square of the other is not below it. That is enough for roots to keep the order of numbers.
-/

namespace NeighborSearch

open Float.Model (Format UnpackedFloat)
open Float.Model.UnpackedFloat

variable {format : Format}

/-! ## Rational numbers next to a root -/

theorem exists_square_le {a x : ℚ} (ha : 0 ≤ a) (h : a * a < x) : ∃ v, a < v ∧ v * v ≤ x := by
  have hroot : (a : ℝ) < √(x : ℝ) := by
    rw [Real.lt_sqrt (by exact_mod_cast ha), pow_two]
    exact_mod_cast h
  obtain ⟨v, hav, hvx⟩ := exists_rat_btwn hroot
  have hav : a < v := by exact_mod_cast hav
  rw [Real.lt_sqrt (by exact_mod_cast ha.trans hav.le), pow_two] at hvx
  exact ⟨v, hav, by exact_mod_cast hvx.le⟩

theorem exists_le_square {b x : ℚ} (hb : 0 < b) (h : x < b * b) : ∃ w, w < b ∧ 0 < w ∧ x ≤ w * w := by
  have hroot : √(x : ℝ) < b := by
    rw [Real.sqrt_lt' (by exact_mod_cast hb), pow_two]
    exact_mod_cast h
  obtain ⟨w, hxw, hwb⟩ := exists_rat_btwn hroot
  have hw : (0 : ℝ) < w := (Real.sqrt_nonneg _).trans_lt hxw
  rw [Real.sqrt_lt' hw, pow_two] at hxw
  exact ⟨w, by exact_mod_cast hwb, by exact_mod_cast hw, by exact_mod_cast hxw.le⟩

theorem standsFor_below_half {n : Nat} {q : ℚ} (hlow : n < q) (hhigh : q < n + 1 / 2) :
    StandsFor (ExtendedMantissa.ofMantissaAndAccuracy n (.inexact .lt)) q :=
  ⟨q - n, by linarith, by linarith,
    by simpa [ExtendedMantissa.ofMantissaAndAccuracy, sub_eq_zero] using hlow.ne',
    by simp [ExtendedMantissa.ofMantissaAndAccuracy]⟩

theorem standsFor_above_half {n : Nat} {q : ℚ} (hlow : n + 1 / 2 < q) (hhigh : q < n + 1) :
    StandsFor (ExtendedMantissa.ofMantissaAndAccuracy n (.inexact .gt)) q := by
  refine ⟨q - n - 1 / 2, by linarith, by linarith, ?_, ?_⟩
  · simp only [ExtendedMantissa.ofMantissaAndAccuracy, true_iff, ne_eq, sub_sub, sub_eq_zero]
    exact hlow.ne'
  · simp only [ExtendedMantissa.ofMantissaAndAccuracy, if_true]
    ring

/-- What is known of the root of a whole number beyond its whole part. -/
def rootAccuracy (n : Nat) : Accuracy :=
  if n - n.sqrt * n.sqrt = 0 then .exact
  else .inexact (if n - n.sqrt * n.sqrt ≤ n.sqrt then .lt else .gt)

/-- A rational number that is known as well as the root of a whole number is. -/
structure StandsForRoot (n : Nat) (q : ℚ) : Prop where
  low : n.sqrt ≤ q
  high : q < n.sqrt + 1
  stands : StandsFor (ExtendedMantissa.ofMantissaAndAccuracy n.sqrt (rootAccuracy n)) q

/-- An interval around the root has such numbers on either side of it if all its numbers are such. -/
theorem exists_standsForRoot_between {n : Nat} {low high : ℚ} (hnonneg : 0 ≤ low)
    (hlow : low * low < n) (hhigh : (n : ℚ) < high * high) (hpos : 0 < high)
    (hstands : ∀ q, low < q → q < high → StandsForRoot n q) :
    ∃ v w, StandsForRoot n v ∧ StandsForRoot n w ∧ v * v ≤ n ∧ n ≤ w * w := by
  obtain ⟨v, hlowv, hv⟩ := exists_square_le hnonneg hlow
  obtain ⟨w, hwhigh, hwpos, hw⟩ := exists_le_square hpos hhigh
  have hvhigh : v < high := lt_of_mul_self_lt_mul_self₀ hpos.le (hv.trans_lt hhigh)
  have hloww : low < w := lt_of_mul_self_lt_mul_self₀ hwpos.le (hlow.trans_le hw)
  exact ⟨v, w, hstands v hlowv hvhigh, hstands w hloww hwhigh, hv, hw⟩

/-- There is such a number on either side of the root. -/
theorem exists_standsForRoot (n : Nat) :
    ∃ v w, StandsForRoot n v ∧ StandsForRoot n w ∧ v * v ≤ n ∧ n ≤ w * w := by
  have hlow := Nat.sqrt_le n
  have hhigh := Nat.lt_succ_sqrt n
  set r := n.sqrt with hr
  have hnonneg : (0 : ℚ) ≤ r := by positivity
  by_cases hexact : n - r * r = 0
  · have hstands : StandsForRoot n r := by
      refine ⟨le_rfl, lt_add_one _, ?_⟩
      rw [rootAccuracy, ← hr, if_pos hexact]
      exact standsFor_exact r
    have hequal : (n : ℚ) = r * r := by exact_mod_cast (by omega : n = r * r)
    exact ⟨r, r, hstands, hstands, hequal.ge, hequal.le⟩
  · by_cases hhalf : n - r * r ≤ r
    · have hless : (r : ℚ) * r < n := by exact_mod_cast (by omega : r * r < n)
      have hmiddle : (n : ℚ) < (r + 1 / 2) * (r + 1 / 2) := by
        have : (n : ℚ) ≤ r * r + r := by exact_mod_cast (by omega : n ≤ r * r + r)
        linarith
      refine exists_standsForRoot_between hnonneg hless hmiddle (by positivity) ?_
      intro q hrq hq
      refine ⟨hrq.le, by linarith, ?_⟩
      rw [rootAccuracy, ← hr, if_neg hexact, if_pos hhalf]
      exact standsFor_below_half hrq hq
    · have hmiddle : ((r : ℚ) + 1 / 2) * (r + 1 / 2) < n := by
        have : (r * r + r + 1 : ℚ) ≤ n := by exact_mod_cast (by omega : r * r + r + 1 ≤ n)
        linarith
      have hnext : (n : ℚ) < (r + 1) * (r + 1) := by exact_mod_cast hhigh
      refine exists_standsForRoot_between (by positivity) hmiddle hnext (by positivity) ?_
      intro q hrq hq
      refine ⟨by linarith, hq, ?_⟩
      rw [rootAccuracy, ← hr, if_neg hexact, if_neg hhalf]
      exact standsFor_above_half hrq hq

/-! ## Rounding a root -/

/-- Rounding the root of `x` gives the number at place `p`: so does rounding a number that is no
larger than the root, and a number that is no smaller. -/
def RootRoundsTo (format : Format) (x : ℚ) (p : Int) : Prop :=
  ∃ v w, 0 < v ∧ 0 < w ∧ v * v ≤ x ∧ x ≤ w * w ∧ RoundsTo format v p ∧ RoundsTo format w p

theorem RootRoundsTo.mono {x y : ℚ} {p q : Int} (hx : RootRoundsTo format x p)
    (hy : RootRoundsTo format y q) (h : x ≤ y) : p ≤ q := by
  obtain ⟨v, _, hv, -, hvx, -, hp, -⟩ := hx
  obtain ⟨_, w, -, hw, -, hyw, -, hq⟩ := hy
  exact hp.mono hq hv
    ((mul_self_le_mul_self_iff hv.le hw.le).mpr (hvx.trans (h.trans hyw)))

theorem RootRoundsTo.nonneg {x : ℚ} {p : Int} (h : RootRoundsTo format x p) : 0 ≤ p := by
  obtain ⟨v, w, -, -, -, -, hp, -⟩ := h
  exact hp.nonneg

theorem StandsAt.unique {s : Sign} {p q : Int} {u : UnpackedFloat} (hp : StandsAt format s p u)
    (hq : StandsAt format s q u) : p = q := by
  cases hp with
  | zero hp =>
    cases hq with
    | zero hq => exact hp.trans hq.symm
  | finite hm h hp =>
    cases hq with
    | finite hm' h' hq => exact hp.symm.trans hq

/-- An integer root has at least half of the binary digits. -/
theorem two_pow_half_log2_le_sqrt {n : Nat} (hn : 0 < n) : 2 ^ (n.log2 / 2) ≤ n.sqrt := by
  rw [Nat.le_sqrt, ← pow_add]
  exact (Nat.pow_le_pow_right (by norm_num) (by omega)).trans (Nat.log2_self_le hn.ne')

/-- The least exponent that the digits of a root reach down to. -/
def rootExponent (format : Format) (m : Nat) (e : Int) : Int :=
  min (e / 2) (format.targetExponent ((Float.Model.totalExponent m e + 1) / 2))

/-- The number of which the whole root is taken: an even number of binary digits has been added. -/
def radicand (format : Format) (m : Nat) (e : Int) : Nat :=
  m <<< (e - 2 * rootExponent format m e).toNat

/-- The root of a positive number is rounded from an integer root. -/
theorem sqrt_eq (format : Format) {m : Nat} (hm : 0 < m) (e : Int) :
    sqrt format (.finite .positive m e hm) = roundWithAccuracy format .positive
      (radicand format m e).sqrt (rootExponent format m e) (rootAccuracy (radicand format m e)) :=
  rfl

theorem radicand_pos (format : Format) {m : Nat} (hm : 0 < m) (e : Int) : 0 < radicand format m e := by
  rw [radicand, Nat.shiftLeft_eq]
  positivity

/-- The number under the integer root is the given number, in units of an even power of two. -/
theorem radicand_value (format : Format) (m : Nat) (e : Int) : (m : ℚ) * 2 ^ e
    = radicand format m e * (2 ^ rootExponent format m e * 2 ^ rootExponent format m e) := by
  have hshift : e = ((e - 2 * rootExponent format m e).toNat : Int)
      + (rootExponent format m e + rootExponent format m e) := by
    have : rootExponent format m e ≤ e / 2 := min_le_left _ _
    omega
  rw [radicand, Nat.shiftLeft_eq, ← zpow_add₀ (by norm_num)]
  push_cast
  rw [mul_assoc, ← zpow_natCast, ← zpow_add₀ (by norm_num), ← hshift]

/-- The whole root has at least as many digits as the format. -/
theorem rootExponent_le (format : Format) {m : Nat} (hm : 0 < m) (e : Int) :
    rootExponent format m e
      ≤ roundingExponent format (radicand format m e).sqrt (rootExponent format m e) := by
  have hpos := radicand_pos format hm e
  have hlog : m.log2 + (e - 2 * rootExponent format m e).toNat ≤ (radicand format m e).log2 := by
    rw [Nat.le_log2 hpos.ne', radicand, Nat.shiftLeft_eq, pow_add]
    exact Nat.mul_le_mul_right _ (Nat.log2_self_le hm.ne')
  have hdigits := (Nat.le_log2 (Nat.sqrt_pos.mpr hpos).ne').mpr (two_pow_half_log2_le_sqrt hpos)
  have hround : roundingExponent format (radicand format m e).sqrt (rootExponent format m e)
      = max ((radicand format m e).sqrt.log2 + 1 + rootExponent format m e - format.mantissaBits)
        format.minExponent := rfl
  have hroot : rootExponent format m e = min (e / 2)
      (max ((m.log2 + 1 + e + 1) / 2 - format.mantissaBits) format.minExponent) := rfl
  rw [hround]
  omega

/-- A root is rounded once. -/
theorem sqrt_spec (format : Format) {m : Nat} (hm : 0 < m) (e : Int) :
    ∃ p, RootRoundsTo format (m * 2 ^ e) p ∧
      StandsAt format .positive p (sqrt format (.finite .positive m e hm)) := by
  have hroot := Nat.sqrt_pos.mpr (radicand_pos format hm e)
  have hexponent := rootExponent_le format hm e
  rw [sqrt_eq, radicand_value format m e]
  set n := radicand format m e
  set t := rootExponent format m e
  have hunit : (0 : ℚ) < 2 ^ t := by positivity
  have hrounds : ∀ q, StandsForRoot n q → 0 < q * 2 ^ t ∧ ∃ p, RoundsTo format (q * 2 ^ t) p ∧
      StandsAt format .positive p (roundWithAccuracy format .positive n.sqrt t (rootAccuracy n)) := by
    intro q hq
    have hpos : 0 < q * 2 ^ t := mul_pos (lt_of_lt_of_le (by exact_mod_cast hroot) hq.low) hunit
    have htarget : exponentFor format (q * 2 ^ t) = roundingExponent format n.sqrt t :=
      exponentFor_eq_roundingExponent hroot (mul_le_mul_of_nonneg_right hq.low hunit.le)
        (mul_lt_mul_of_pos_right hq.high hunit)
    refine ⟨hpos, roundWithAccuracy_spec .positive hpos ?_ (htarget ▸ hexponent) htarget.symm⟩
    rw [mul_div_assoc, div_self hunit.ne', mul_one]
    exact hq.stands
  obtain ⟨v, w, hv, hw, hvn, hnw⟩ := exists_standsForRoot n
  obtain ⟨hvpos, p, hp, hstands⟩ := hrounds v hv
  obtain ⟨hwpos, q, hq, hstands'⟩ := hrounds w hw
  obtain rfl := hstands.unique hstands'
  refine ⟨p, ⟨v * 2 ^ t, w * 2 ^ t, hvpos, hwpos, ?_, ?_, hp, hq⟩, hstands⟩
  · rw [mul_mul_mul_comm]
    exact mul_le_mul_of_nonneg_right hvn (by positivity)
  · rw [mul_mul_mul_comm]
    exact mul_le_mul_of_nonneg_right hnw (by positivity)

/-! ## Roots of numbers that are not negative -/

variable {x y : Float}

/-- The place of the root, given the place of the number itself. -/
inductive Roots : Int → Int → Prop
  | zero : Roots 0 0
  | infinity : Roots (infinityPlace .binary64) (infinityPlace .binary64)
  | finite {m : Nat} {e p : Int} (hm : 0 < m) (h : Normalised .binary64 m e)
      (hlt : finitePlace .binary64 m e < infinityPlace .binary64)
      (hp : RootRoundsTo .binary64 (m * 2 ^ e) p) :
      Roots (finitePlace .binary64 m e) (min p (infinityPlace .binary64))

theorem Roots.bounds {p q : Int} (h : Roots p q) :
    0 ≤ p ∧ 0 ≤ q ∧ q ≤ infinityPlace .binary64 := by
  have hinf := infinityPlace_pos .binary64
  cases h with
  | zero => omega
  | infinity => omega
  | finite hm h hlt hp =>
    have hpos := h.place_pos hm
    have hnonneg := hp.nonneg
    omega

theorem Roots.mono {p p' q q' : Int} (h : Roots p q) (h' : Roots p' q') (hle : p ≤ p') :
    q ≤ q' := by
  have hinf := infinityPlace_pos .binary64
  cases h with
  | zero => exact h'.bounds.2.1
  | infinity =>
    cases h' with
    | zero => omega
    | infinity => exact le_rfl
    | finite hm h hlt hp => omega
  | finite hm h hlt hp =>
    cases h' with
    | zero =>
      have := h.place_pos hm
      omega
    | infinity => exact min_le_right _ _
    | finite hm' h' hlt' hp' => exact min_le_min_right _ (hp.mono hp' (h.value_le h' hle))

/-- A number that is not negative has a root, which is not negative either. -/
theorem roots_of_nonneg (h : 0 ≤ x) :
    x.sqrt.isNaN = false ∧ Roots (place64 x) (place64 x.sqrt) := by
  have hsqrt : x.sqrt.toModel.unpack
      = unpack .binary64 (pack .binary64 (sqrt .binary64 x.toModel.unpack)) := rfl
  have hrepresentable := representable64 x
  change x.sqrt.toModel.unpack.isNaN = false ∧ _
  rw [place64, place64, hsqrt]
  rcases nonneg_cases h with ⟨s, hu⟩ | hu | ⟨m, e, hm, hu⟩ <;> rw [hu]
  · cases s <;> exact ⟨by decide, .zero⟩
  · exact ⟨by decide, .infinity⟩
  · rw [hu] at hrepresentable
    obtain ⟨p, hp, hstands⟩ := sqrt_spec .binary64 hm e
    obtain ⟨hnan, hplace⟩ := hstands.place_pack (by decide)
    rw [hplace]
    exact ⟨hnan, .finite hm hrepresentable.1 hrepresentable.2 hp⟩

/-- The root keeps the order of numbers. -/
theorem place64_sqrt_mono (hx : 0 ≤ x) (hy : 0 ≤ y) (h : place64 x ≤ place64 y) :
    place64 x.sqrt ≤ place64 y.sqrt :=
  (roots_of_nonneg hx).2.mono (roots_of_nonneg hy).2 h

/-- There is one unsigned zero. -/
theorem Unsigned.eq_zero {s : Sign} (h : Unsigned x) (hx : x.toModel.unpack = .zero s) : x = 0 := by
  have hnan : x.isNaN = false := by
    change x.toModel.unpack.isNaN = false
    rw [hx]
    rfl
  refine orderKey_injective ?_
  rw [h.orderKey_eq hnan, place64, hx]
  cases s <;> decide

/-- A root carries no minus sign where the number carries none. -/
theorem Unsigned.sqrt (h : Unsigned x) : Unsigned x.sqrt := by
  have hsqrt : x.sqrt = .ofModel (.pack (UnpackedFloat.sqrt .binary64 x.toModel.unpack)) := rfl
  cases hnan : x.isNaN with
  | true =>
    intro hroot
    rw [isNaN_sqrt hnan] at hroot
    cases hroot
  | false =>
    rcases nonneg_cases (h.nonneg hnan) with ⟨s, hu⟩ | hu | ⟨m, e, hm, hu⟩
    · rw [h.eq_zero hu]
      exact fun _ => by decide
    · rw [hsqrt, hu]
      exact fun _ => by decide
    · obtain ⟨p, -, hstands⟩ := sqrt_spec .binary64 hm e
      rw [hsqrt, hu]
      exact hstands.unsigned_pack

end NeighborSearch
