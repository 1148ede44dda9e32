import NeighborSearch.Proofs.FiniteNumbers

/-!
# Exact values

Every finite number stands for a rational number. What rounding gives is as near to the number that
is rounded as any value of the format, and where two values are equally near it has the even
significand. It is off by half a unit of the last digit that is kept, and not at all where the
number needs no more digits.
-/

namespace NeighborSearch

open Float.Model (Format UnpackedFloat)
open Float.Model.UnpackedFloat

variable {format : Format}

/-! ## Values -/

/-- A magnitude with a sign. -/
def signed : Sign → ℚ → ℚ
  | .positive, q => q
  | .negative, q => -q

/-- The exact value of a finite number; what is not finite counts as zero. -/
def exactValue : UnpackedFloat → ℚ
  | .finite s m e _ => signed s (m * 2 ^ e)
  | _ => 0

/-- The rational number that a finite binary64 number is. -/
def value64 (x : Float) : ℚ := exactValue x.toModel.unpack

/-- The rational number that a finite binary32 number is. -/
def value32 (v : Float32) : ℚ := exactValue v.toModel.unpack

/-- The sign of a number, that of zero included. -/
def signOf : UnpackedFloat → Sign
  | .finite s _ _ _ | .zero s | .infinity s => s
  | .notANumber => .positive

@[simp]
theorem signed_zero (s : Sign) : signed s 0 = 0 := by
  cases s <;> simp [signed]

theorem signed_sub (s : Sign) (p q : ℚ) : signed s p - signed s q = signed s (p - q) := by
  cases s <;> simp only [signed]
  ring

@[simp]
theorem abs_signed (s : Sign) (q : ℚ) : |signed s q| = |q| := by
  cases s <;> simp [signed]

theorem signed_signed (s : Sign) (q : ℚ) : signed s (signed s q) = q := by
  cases s <;> simp [signed]

/-! ## The nearest integer -/

theorem NearestEven.one_le {v : ℚ} {n k : ℕ} (hk : k ≠ n) : 1 ≤ |v - n| + |v - k| := by
  have happart : (1 : ℚ) ≤ |(k : ℚ) - n| := by
    have : (1 : ℤ) ≤ |(k : ℤ) - n| := Int.one_le_abs (by omega)
    exact_mod_cast this
  calc (1 : ℚ) ≤ |(k : ℚ) - n| := happart
    _ = |(v - n) - (v - k)| := by ring_nf
    _ ≤ |v - n| + |v - k| := abs_sub _ _

theorem NearestEven.le_abs_sub {v : ℚ} {n : ℕ} (h : NearestEven v n) (k : ℕ) :
    |v - n| ≤ |v - k| := by
  by_cases hk : k = n
  · rw [hk]
  · have hnear := h.near
    have happart := NearestEven.one_le (v := v) hk
    linarith

theorem NearestEven.even_of_tie {v : ℚ} {n k : ℕ} (h : NearestEven v n) (hk : k ≠ n)
    (htie : |v - k| = |v - n|) : Even n := by
  have hnear := h.near
  have happart := NearestEven.one_le (v := v) hk
  exact h.tie (by linarith)

/-! ## The nearest value of a format -/

theorem scaled_sub (q k : ℚ) (t : Int) : |q - k * 2 ^ t| = |q / 2 ^ t - k| * 2 ^ t := by
  have hpos : (0 : ℚ) < 2 ^ t := by positivity
  calc |q - k * 2 ^ t| = |(q / 2 ^ t - k) * 2 ^ t| := by
        rw [sub_mul, div_mul_cancel₀ q hpos.ne']
    _ = |q / 2 ^ t - k| * 2 ^ t := by rw [abs_mul, abs_of_pos hpos]

/-- Above the least exponent a number has all the digits of the format. -/
theorem binade_le_of_exponentFor {q : ℚ} (hq : 0 < q)
    (ht : format.minExponent < exponentFor format q) :
    (binade format : ℚ) * 2 ^ exponentFor format q ≤ q := by
  have hexp := exponentFor_eq format q
  have hbits := mantissaBits_eq format
  have hbinade : (binade format : ℚ) = 2 ^ (format.mantissaBitsWithoutImplicit : Int) := by
    simp [binade]
  rw [hbinade, ← zpow_add₀ (by norm_num)]
  exact (zpow_le_zpow_right₀ (by norm_num) (by omega)).trans (log_bounds hq).1

/-- No value of the format is nearer than the one that rounding gives. -/
theorem NearestEven.nearest {q : ℚ} (hq : 0 < q) {n : ℕ}
    (hn : NearestEven (q / 2 ^ exponentFor format q) n) {m : ℕ} {e : Int}
    (h : Normalised format m e) :
    |q - n * 2 ^ exponentFor format q| ≤ |q - m * 2 ^ e| ∧
      (|q - m * 2 ^ e| = |q - n * 2 ^ exponentFor format q| →
        (m : ℚ) * 2 ^ e ≠ n * 2 ^ exponentFor format q → Even n) := by
  have hleast := h.least
  have hleading := (hn.rounding_bounds hq).2
  have hbinade := @binade_le_of_exponentFor format q hq
  set t := exponentFor format q
  have hpos : (0 : ℚ) < 2 ^ t := by positivity
  rcases le_or_gt t e with hte | hte
  · -- The other value is a multiple of the unit to which the number is rounded.
    obtain ⟨k, hk⟩ : ∃ k : ℕ, (m : ℚ) * 2 ^ e = k * 2 ^ t := by
      refine ⟨m * 2 ^ (e - t).toNat, ?_⟩
      rw [show e = ((e - t).toNat : Int) + t by omega, zpow_add₀ (by norm_num), zpow_natCast]
      push_cast
      rw [show (((e - t).toNat : Int) + t - t).toNat = (e - t).toNat by omega]
      ring
    rw [hk, scaled_sub, scaled_sub]
    refine ⟨mul_le_mul_of_nonneg_right (hn.le_abs_sub k) hpos.le, ?_⟩
    intro htie hne
    exact hn.even_of_tie (by rintro rfl; exact hne rfl) (mul_right_cancel₀ hpos.ne' htie)
  · -- Otherwise it lies below the least number with so large an exponent.
    have hbinade := hbinade (by omega)
    have hless : (m : ℚ) * 2 ^ e < binade format * 2 ^ t := by
      have hfits : (m : ℚ) < 2 * binade format := by exact_mod_cast h.fits
      calc (m : ℚ) * 2 ^ e < 2 * binade format * 2 ^ e :=
            mul_lt_mul_of_pos_right hfits (by positivity)
        _ = binade format * 2 ^ (e + 1) := by rw [zpow_add_one₀ (by norm_num)]; ring
        _ ≤ binade format * 2 ^ t :=
          mul_le_mul_of_nonneg_left (zpow_le_zpow_right₀ (by norm_num) (by omega)) (by positivity)
    have hnear : |q - n * 2 ^ t| ≤ q - binade format * 2 ^ t := by
      rw [← abs_of_nonneg (sub_nonneg.mpr hbinade), scaled_sub, scaled_sub]
      exact mul_le_mul_of_nonneg_right (hn.le_abs_sub _) hpos.le
    have hother : |q - m * 2 ^ e| = q - m * 2 ^ e := abs_of_nonneg (by linarith)
    rw [hother]
    exact ⟨by linarith, fun htie => by linarith⟩

/-- Rounding is off by half a unit of the last digit that is kept. -/
theorem NearestEven.error {q : ℚ} (hq : 0 < q) {n : ℕ}
    (hn : NearestEven (q / 2 ^ exponentFor format q) n) :
    |q - n * 2 ^ exponentFor format q|
      ≤ 2 ^ (format.minExponent - 1) + q * 2 ^ (-(format.mantissaBits : Int)) := by
  have hexp := exponentFor_eq format q
  set t := exponentFor format q
  have hhalf : |q - n * 2 ^ t| ≤ 2 ^ (t - 1) := by
    rw [scaled_sub, zpow_sub_one₀ (by norm_num), mul_comm ((2 : ℚ) ^ t), ← one_div]
    exact mul_le_mul_of_nonneg_right hn.near (by positivity)
  refine hhalf.trans ?_
  have hleast : (0 : ℚ) < 2 ^ (format.minExponent - 1) := by positivity
  have hlast : (0 : ℚ) < q * 2 ^ (-(format.mantissaBits : Int)) := by positivity
  rcases max_choice (Int.log 2 q + 1 - format.mantissaBits) format.minExponent with hmax | hmax
  · have hunit : (2 : ℚ) ^ (t - 1) = 2 ^ Int.log 2 q * 2 ^ (-(format.mantissaBits : Int)) := by
      rw [← zpow_add₀ (by norm_num)]
      congr 1
      omega
    have hle : (2 : ℚ) ^ (t - 1) ≤ q * 2 ^ (-(format.mantissaBits : Int)) := by
      rw [hunit]
      exact mul_le_mul_of_nonneg_right (log_bounds hq).1 (by positivity)
    linarith
  · rw [hexp, hmax]
    linarith

/-- A multiple of the unit is rounded to itself. -/
theorem NearestEven.exact {q : ℚ} {n k : ℕ} (hn : NearestEven (q / 2 ^ exponentFor format q) n)
    (hk : q = k * 2 ^ exponentFor format q) : n = k := by
  have hpos : (0 : ℚ) < 2 ^ exponentFor format q := by positivity
  have hzero : |(k : ℚ) - n| ≤ 0 := by
    have hle := hn.le_abs_sub k
    rwa [(div_eq_iff hpos.ne').mpr hk, sub_self, abs_zero] at hle
  exact_mod_cast (sub_eq_zero.mp (abs_nonpos_iff.mp hzero)).symm

theorem normalised_zero (format : Format) : Normalised format 0 format.minExponent :=
  ⟨le_rfl, by have := binade_pos format; omega, Or.inl rfl⟩

/-- What a finite value is made of, seen with either sign. -/
theorem exists_normalised_value (s : Sign) {u : UnpackedFloat} (hu : Representable format u)
    (hfinite : u.isFinite = true) : ∃ (m : ℕ) (e : Int), Normalised format m e ∧
      (signed s (exactValue u) = m * 2 ^ e ∨
        0 < (m : ℚ) * 2 ^ e ∧ signed s (exactValue u) = -(m * 2 ^ e)) := by
  cases u with
  | notANumber => cases hfinite
  | infinity s' => cases hfinite
  | zero s' => exact ⟨0, _, normalised_zero format, Or.inl (by simp [exactValue])⟩
  | finite s' m e hm =>
    refine ⟨m, e, hu.1, ?_⟩
    have hpos : (0 : ℚ) < m * 2 ^ e := by positivity
    cases s <;> cases s' <;> simp [exactValue, signed, hpos]

/-! ## The result of rounding -/

/-- `u` is what rounding a positive number `q` gives, with the sign `s`: the nearest significand is
`n`, and infinity is out of question. -/
structure Rounding (format : Format) (s : Sign) (q : ℚ) (n : ℕ) (u : UnpackedFloat) : Prop where
  pos : 0 < q
  nearest : NearestEven (q / 2 ^ exponentFor format q) n
  stands : StandsAt format s (finitePlace format n (exponentFor format q)) u

/-- Rounding takes a nearest multiple of the unit. -/
theorem exists_rounding (format : Format) (s : Sign) {m : ℕ} (hm : 0 < m) (e : Int) :
    ∃ n, Rounding format s (m * 2 ^ e) n (round format s m e) := by
  obtain ⟨-, ⟨n, hn, rfl⟩, hstands⟩ := round_spec format s hm e
  exact ⟨n, by positivity, hn, hstands⟩

/-- A place belongs to one value, whatever significand it is written with. -/
theorem Normalised.value_of_place {m n : ℕ} {e t : Int} (h : Normalised format m e)
    (hleast : format.minExponent ≤ t) (hfits : n ≤ 2 * binade format)
    (hleading : t = format.minExponent ∨ binade format ≤ n)
    (hplace : finitePlace format m e = finitePlace format n t) : (m : ℚ) * 2 ^ e = n * 2 ^ t := by
  rcases hfits.lt_or_eq with hlt | rfl
  · obtain ⟨rfl, rfl⟩ := h.eq_of_place_eq ⟨hleast, hlt, hleading⟩ hplace
    rfl
  · have hbinade := binade_pos format
    have hcarry : Normalised format (binade format) (t + 1) :=
      ⟨by omega, by omega, Or.inr le_rfl⟩
    have hnext : finitePlace format (2 * binade format) t
        = finitePlace format (binade format) (t + 1) := by
      unfold finitePlace
      push_cast
      ring
    obtain ⟨rfl, rfl⟩ := h.eq_of_place_eq hcarry (hplace.trans hnext)
    rw [zpow_add_one₀ (by norm_num)]
    push_cast
    ring

section Rounding

variable {s : Sign} {q : ℚ} {n : ℕ} {u : UnpackedFloat} (h : Rounding format s q n u)
include h

theorem Rounding.isFinite : u.isFinite = true := by
  cases h.stands <;> rfl

theorem Rounding.isNaN : u.isNaN = false := by
  cases h.stands <;> rfl

theorem Rounding.sign : signOf u = s := by
  cases h.stands <;> rfl

theorem Rounding.place_eq :
    place format u = s.apply (finitePlace format n (exponentFor format q)) := by
  cases h.stands with
  | zero hp =>
    rw [hp]
    cases s <;> rfl
  | finite hm hnormal hp =>
    rw [← hp]
    rfl

theorem Rounding.value : exactValue u = signed s (n * 2 ^ exponentFor format q) := by
  have hleast := minExponent_le_exponentFor format q
  obtain ⟨hfits, hleading⟩ := h.nearest.rounding_bounds h.pos
  cases h.stands with
  | zero hp =>
    have hsteps := finitePlace_nonneg format 0 hleast
    have hn : n = 0 := by
      unfold finitePlace at hp hsteps
      omega
    rw [hn, Nat.cast_zero, zero_mul, signed_zero]
    rfl
  | finite hm hnormal hp =>
    rw [exactValue, hnormal.value_of_place hleast hfits hleading hp]

/-- Rounding is off by half of the smallest unit and a small share of the number at most. -/
theorem Rounding.error : |signed s q - exactValue u|
    ≤ 2 ^ (format.minExponent - 1) + q * 2 ^ (-(format.mantissaBits : Int)) := by
  rw [h.value, signed_sub, abs_signed]
  exact h.nearest.error h.pos

/-- Multiples of the unit are not changed by rounding. -/
theorem Rounding.exact {k : ℕ} (hk : q = k * 2 ^ exponentFor format q) :
    exactValue u = signed s q := by
  rw [h.value, h.nearest.exact hk, ← hk]

/-- No value of the format is nearer, and in a tie the significand is even. -/
theorem Rounding.no_nearer {w : UnpackedFloat} (hw : Representable format w)
    (hfinite : w.isFinite = true) :
    |signed s q - exactValue u| ≤ |signed s q - exactValue w| ∧
      (|signed s q - exactValue w| = |signed s q - exactValue u| → exactValue w ≠ exactValue u →
        Even n) := by
  have hpos := h.pos
  obtain ⟨m, e, hnormal, hvalue⟩ := exists_normalised_value s hw hfinite
  have hw : exactValue w = signed s (signed s (exactValue w)) := (signed_signed s _).symm
  rw [h.value, hw, signed_sub, signed_sub, abs_signed, abs_signed]
  rcases hvalue with hsame | ⟨hother, hopposite⟩
  · obtain ⟨hnear, htie⟩ := h.nearest.nearest hpos hnormal
    rw [hsame]
    exact ⟨hnear, fun heq hne => htie heq fun hval => hne (congrArg (signed s) hval)⟩
  · -- A value of the other sign is farther away than zero.
    have hzero := (h.nearest.nearest hpos (normalised_zero format)).1
    rw [Nat.cast_zero, zero_mul, sub_zero, abs_of_pos hpos] at hzero
    have hfar : |q - -(m * 2 ^ e)| = q + m * 2 ^ e := by
      rw [sub_neg_eq_add, abs_of_pos (by linarith)]
    rw [hopposite, hfar]
    exact ⟨by linarith, fun heq => by linarith⟩

/-- Packing keeps what stands below infinity. -/
theorem Rounding.unpack_pack (hbits : 1 < format.exponentBits)
    (hlt : finitePlace format n (exponentFor format q) < infinityPlace format) :
    unpack format (pack format u) = u := by
  cases h.stands with
  | zero hp => exact unpack_packedZero
  | finite hm hnormal hp => exact unpack_pack_finite s hm hnormal hbits (hp ▸ hlt)

end Rounding

end NeighborSearch
