import NeighborSearch.Proofs.ExactValues

/-!
# Conversions and exact values

How far a conversion moves a number. Narrowing gives the nearest binary32 number of everything up to
the largest one, widening moves nothing, and integers of up to 64 bits are rounded to binary64 and
stay well within the range of binary32.
-/

namespace NeighborSearch

open Float.Model (Format UnpackedFloat)
open Float.Model.UnpackedFloat

/-! ## Narrowing -/

section Narrowing

variable {x : Float} (hlow : -float32Max ≤ x) (hhigh : x ≤ float32Max)
include hlow hhigh

theorem abs_place64_le_float32Max : |place64 x| ≤ place64 float32Max := by
  have hmin : place64 (-float32Max) = -place64 float32Max := by decide
  rw [le_iff_place64 (by decide) (isNaN_of_le hlow).2, hmin] at hlow
  rw [le_iff_place64 (isNaN_of_le hhigh).1 (by decide)] at hhigh
  exact abs_le.mpr ⟨hlow, hhigh⟩

/-- What does not lie beyond the largest binary32 number is not rounded to infinity. -/
theorem abs_place32_narrow_lt : |place32 (narrow x)| < infinityPlace .binary32 := by
  have hnan := (isNaN_of_le hlow).2
  have hmin : place32 (narrow (-float32Max)) = -(infinityPlace .binary32 - 1) := by decide
  have hmax : place32 (narrow float32Max) = infinityPlace .binary32 - 1 := by decide
  have hleast := place32_narrow_mono (isNaN_of_le hlow).1 hnan
    ((le_iff_place64 (isNaN_of_le hlow).1 hnan).mp hlow)
  have hmost := place32_narrow_mono hnan (isNaN_of_le hhigh).2
    ((le_iff_place64 hnan (isNaN_of_le hhigh).2).mp hhigh)
  rw [hmin] at hleast
  rw [hmax] at hmost
  rw [abs_lt]
  omega

theorem isFinite_of_range : x.isFinite = true := by
  have habs := abs_place64_le_float32Max hlow hhigh
  have hmax : place64 float32Max < infinityPlace .binary64 := by decide
  exact isFinite_of_place (isNaN_of_le hlow).2 (habs.trans_lt hmax)

/-- A number in range is zero and stays so, or it is rounded. -/
theorem narrow_cases :
    (∃ s, x.toModel.unpack = .zero s ∧ (narrow x).toModel.unpack = .zero s) ∨
    ∃ s m e hm n, x.toModel.unpack = .finite s m e hm ∧
      Rounding .binary32 s (m * 2 ^ e) n (narrow x).toModel.unpack := by
  have hlt := abs_place32_narrow_lt hlow hhigh
  rw [place32, unpack_narrow] at hlt
  rw [unpack_narrow]
  rcases finite_cases (isFinite_of_range hlow hhigh) with ⟨s, hu⟩ | ⟨s, m, e, hm, hu⟩
  · exact Or.inl ⟨s, hu, by rw [hu, narrowed_zero]⟩
  · obtain ⟨n, hn⟩ := exists_rounding .binary32 s hm e
    refine Or.inr ⟨s, m, e, hm, n, hu, ?_⟩
    have hnonneg := finitePlace_nonneg .binary32 n (minExponent_le_exponentFor .binary32 (m * 2 ^ e))
    have hplace := (hn.stands.place_pack (by decide)).2
    have hpack : narrowed x.toModel.unpack
        = unpack .binary32 (pack .binary32 (round .binary32 s m e)) := by rw [hu]; rfl
    rw [hpack, hplace] at hlt
    rw [hpack, hn.unpack_pack (by decide)]
    · exact hn
    · have hinf := infinityPlace_pos .binary32
      cases s <;> simp only [Sign.apply, abs_neg] at hlt <;> rw [abs_of_nonneg (by omega)] at hlt <;>
        omega

/-- Narrowing is off by 2 ^ -24 of the number, or by half the least number. -/
theorem narrow_error :
    |value64 x - value32 (narrow x)| ≤ 2 ^ (-150 : Int) + |value64 x| * 2 ^ (-24 : Int) := by
  rw [value64, value32]
  rcases narrow_cases hlow hhigh with ⟨s, hu, hv⟩ | ⟨s, m, e, hm, n, hu, hn⟩
  · rw [hu, hv]
    simp [exactValue]
  · rw [hu, exactValue, abs_signed, abs_of_pos hn.pos]
    exact hn.error

end Narrowing

/-- `v` is the binary32 number nearest to `x`: it has the sign of `x`, no finite number is nearer, and
where another one is equally near, the last bit of `v` is zero. -/
structure NearestFloat32 (x : Float) (v : Float32) : Prop where
  isFinite : v.isFinite = true
  sign : signOf v.toModel.unpack = signOf x.toModel.unpack
  nearest : ∀ w : Float32, w.isFinite = true →
    |value64 x - value32 v| ≤ |value64 x - value32 w|
  tie : ∀ w : Float32, w.isFinite = true →
    |value64 x - value32 w| = |value64 x - value32 v| → value32 w ≠ value32 v → Even v.toBits.toNat

theorem place32_bits {v : Float32} (hv : v.isNaN = false) : ∃ s : Sign,
    place32 v = s.apply (v.toBits.toNat % 2 ^ 31 : ℕ) :=
  ⟨_, @place_unpack .binary32 v.toModel.toBits.toBitVec hv⟩

/-- An even significand leaves the last bit zero. -/
theorem Rounding.even_bits {v : Float32} {s : Sign} {q : ℚ} {n : ℕ}
    (h : Rounding .binary32 s q n v.toModel.unpack) (hn : Even n) : Even v.toBits.toNat := by
  have hplace : place32 v = _ := h.place_eq
  obtain ⟨s', hbits⟩ := place32_bits h.isNaN
  rw [hplace, finitePlace, binade_binary32] at hbits
  rw [Nat.even_iff] at hn ⊢
  cases s <;> cases s' <;> simp only [Sign.apply] at hbits <;> push_cast at hbits <;> omega

/-- Within the range, conversion gives the nearest binary32 number. -/
theorem nearestFloat32_narrow {x : Float} (hlow : -float32Max ≤ x) (hhigh : x ≤ float32Max) :
    NearestFloat32 x (narrow x) := by
  rcases narrow_cases hlow hhigh with ⟨s, hu, hv⟩ | ⟨s, m, e, hm, n, hu, hn⟩
  · have hx : value64 x = 0 := by rw [value64, hu]; rfl
    have hw : value32 (narrow x) = 0 := by rw [value32, hv]; rfl
    refine ⟨?_, by rw [hu, hv], ?_, ?_⟩
    · change (narrow x).toModel.unpack.isFinite = true
      rw [hv]
      rfl
    · intro w _
      rw [hx, hw, sub_zero, abs_zero]
      exact abs_nonneg _
    · intro w _ htie hne
      rw [hx, hw, sub_zero, abs_zero, zero_sub, abs_neg, abs_eq_zero] at htie
      exact absurd (htie.trans hw.symm) hne
  · have hx : value64 x = signed s (m * 2 ^ e) := by rw [value64, hu]; rfl
    refine ⟨hn.isFinite, by rw [hu, hn.sign]; rfl, ?_, ?_⟩
    · intro w hw
      rw [hx]
      exact (hn.no_nearer (representable32 w) hw).1
    · intro w hw htie hne
      rw [hx] at htie
      exact hn.even_bits ((hn.no_nearer (representable32 w) hw).2 htie hne)

/-! ## Widening -/

/-- Widening keeps the value. -/
theorem value64_widen (v : Float32) : value64 (widen v) = value32 v := by
  have hrepresentable := representable32 v
  rw [value64, value32, unpack_widen]
  cases hu : v.toModel.unpack with
  | notANumber => rw [widened_notANumber]
  | infinity s => rw [widened_infinity]
  | zero s => rw [widened_zero]
  | finite s m e hm =>
    rw [hu] at hrepresentable
    obtain ⟨m', e', hm', -, hvalue, hwidened⟩ := exists_widened_finite s hm hrepresentable
    rw [hwidened, exactValue, exactValue, hvalue]

/-! ## Whole numbers -/

/-- The sign of an integer, that of zero being positive. -/
def intSign (n : Int) : Sign := if n < 0 then .negative else .positive

theorem signed_natAbs (n : Int) : signed (intSign n) n.natAbs = n := by
  unfold intSign
  split_ifs with hn
  · rw [signed, ← Int.cast_natCast, Int.natCast_natAbs, abs_of_neg hn]
    push_cast
    ring
  · rw [signed, ← Int.cast_natCast, Int.natCast_natAbs, abs_of_nonneg (by omega)]

/-- An integer is converted by rounding it once. -/
theorem ofInt_eq_round {n : Int} (hn : n ≠ 0) :
    UnpackedFloat.ofInt .binary64 n = round .binary64 (intSign n) n.natAbs 0 := by
  rw [UnpackedFloat.ofInt, UnpackedFloat.normalize, intSign]
  rcases lt_or_gt_of_ne hn with hlt | hgt
  · rw [compare_lt_iff_lt.mpr hlt, if_pos hlt, show n.natAbs = (-n).toNat by omega]
  · rw [compare_gt_iff_gt.mpr hgt, if_neg (by omega), show n.natAbs = n.toNat by omega]

/-- An integer of up to 64 bits is rounded to a number well below infinity. -/
theorem exists_rounding_floatOfInt {n : Int} (hn : n ≠ 0) (hbound : |n| ≤ 2 ^ 63) :
    ∃ k, Rounding .binary64 (intSign n) n.natAbs k (floatOfInt n).toModel.unpack ∧
      finitePlace .binary64 k (exponentFor .binary64 n.natAbs)
        ≤ finitePlace .binary64 (2 ^ 52) 11 := by
  obtain ⟨k, hk⟩ := exists_rounding .binary64 (intSign n) (Int.natAbs_pos.mpr hn) 0
  rw [zpow_zero, mul_one, ← ofInt_eq_round hn] at hk
  have hlarge : Normalised .binary64 (2 ^ 52) 11 := ⟨by decide, by decide, Or.inr (by decide)⟩
  have hle : (n.natAbs : ℚ) ≤ (2 ^ 52 : ℕ) * 2 ^ (11 : ℤ) := by
    have hnat : n.natAbs ≤ 2 ^ 63 := by rw [Int.abs_eq_natAbs] at hbound; omega
    calc (n.natAbs : ℚ) ≤ (2 ^ 63 : ℕ) := by exact_mod_cast hnat
      _ = (2 ^ 52 : ℕ) * 2 ^ (11 : ℤ) := by norm_num
  have hplace := RoundsTo.mono ⟨k, hk.nearest, rfl⟩ (hlarge.roundsTo (by decide)) hk.pos hle
  have hfits : finitePlace .binary64 (2 ^ 52) 11 < infinityPlace .binary64 := by decide
  have hunpack : (floatOfInt n).toModel.unpack
      = unpack .binary64 (pack .binary64 (UnpackedFloat.ofInt .binary64 n)) := rfl
  refine ⟨k, ?_, hplace⟩
  rw [hunpack, hk.unpack_pack (by decide) (by omega)]
  exact hk

theorem value64_floatOfInt_zero : value64 (floatOfInt 0) = 0 := by decide

section Integers

variable {n : Int} (hbound : |n| ≤ 2 ^ 63)
include hbound

/-- Such an integer is a binary64 number of about its size, far below the largest binary32 number. -/
theorem floatOfInt_range : -float32Max ≤ floatOfInt n ∧ floatOfInt n ≤ float32Max := by
  by_cases hn : n = 0
  · subst hn
    decide
  · obtain ⟨k, hk, hplace⟩ := exists_rounding_floatOfInt hn hbound
    have hnan : (floatOfInt n).isNaN = false := hk.isNaN
    have heq : place64 (floatOfInt n) = _ := hk.place_eq
    have hnonneg := finitePlace_nonneg .binary64 k (minExponent_le_exponentFor .binary64 n.natAbs)
    have hmin : place64 (-float32Max) = -place64 float32Max := by decide
    have hmax : finitePlace .binary64 (2 ^ 52) 11 ≤ place64 float32Max := by decide
    rw [le_iff_place64 (by decide) hnan, le_iff_place64 hnan (by decide), hmin, heq]
    cases intSign n <;> simp only [Sign.apply] <;> omega

/-- An integer is off by 2 ^ -53 of its size after rounding, or by half the least number. -/
theorem floatOfInt_error :
    |(n : ℚ) - value64 (floatOfInt n)| ≤ 2 ^ (-1075 : Int) + |(n : ℚ)| * 2 ^ (-53 : Int) := by
  by_cases hn : n = 0
  · subst hn
    rw [value64_floatOfInt_zero]
    simp
  · obtain ⟨k, hk, -⟩ := exists_rounding_floatOfInt hn hbound
    have herror := hk.error
    rw [signed_natAbs, Nat.cast_natAbs, Int.cast_abs] at herror
    exact herror

end Integers

/-- Digits that fit into a format are a multiple of their own unit, also with zeros after them. -/
theorem exists_multiple_shifted {format : Format} {k : ℕ} (hk : 0 < k)
    (hdigits : k < 2 ^ format.mantissaBits) (hleast : format.minExponent ≤ 0) (zeros : ℕ) :
    ∃ j : ℕ, (k : ℚ) * 2 ^ zeros = j * 2 ^ exponentFor format (k * 2 ^ zeros) := by
  have hexp := exponentFor_eq format (k * 2 ^ zeros)
  have hlog : Int.log 2 ((k : ℚ) * 2 ^ zeros) < format.mantissaBits + zeros := by
    rw [← Int.lt_zpow_iff_log_lt (by norm_num) (by positivity), zpow_add₀ (by norm_num),
      zpow_natCast, zpow_natCast]
    exact mul_lt_mul_of_pos_right (by exact_mod_cast hdigits) (by positivity)
  set t := exponentFor format (k * 2 ^ zeros)
  have hunit : t ≤ zeros := by omega
  refine ⟨k * 2 ^ (zeros - t).toNat, ?_⟩
  push_cast
  rw [mul_assoc, ← zpow_natCast, ← zpow_natCast, ← zpow_add₀ (by norm_num)]
  congr 2
  omega

/-- A whole number no larger than the significands of a format is a multiple of its own unit. -/
theorem exists_multiple {format : Format} {k : ℕ} (hk : 0 < k)
    (hdigits : k ≤ 2 ^ format.mantissaBits) (hleast : format.minExponent ≤ 0) :
    ∃ j : ℕ, (k : ℚ) = j * 2 ^ exponentFor format k := by
  rcases hdigits.lt_or_eq with hlt | rfl
  · simpa using exists_multiple_shifted hk hlt hleast 0
  · -- The power of two next beyond the significands is a one with zeros.
    have hone : 1 < 2 ^ format.mantissaBits :=
      Nat.one_lt_two_pow (by simp [Format.mantissaBits])
    simpa using exists_multiple_shifted one_pos hone hleast format.mantissaBits

/-- The integer has at most 53 binary digits, not counting zeros at its end. -/
def FitsFloat (n : Int) : Prop := ∃ m zeros : ℕ, m < 2 ^ 53 ∧ n.natAbs = m * 2 ^ zeros

theorem FitsFloat.of_abs_lt {n : Int} (h : |n| < 2 ^ 53) : FitsFloat n := by
  rw [Int.abs_eq_natAbs] at h
  exact ⟨n.natAbs, 0, by omega, by rw [pow_zero, mul_one]⟩

theorem fitsFloat_two_pow (zeros : ℕ) : FitsFloat (2 ^ zeros) :=
  ⟨1, zeros, by norm_num, by rw [Int.natAbs_pow, one_mul]; rfl⟩

theorem FitsFloat.neg {n : Int} (h : FitsFloat n) : FitsFloat (-n) := by
  rwa [FitsFloat, Int.natAbs_neg]

/-- An integer with few digits is not moved by rounding. -/
theorem FitsFloat.value64_floatOfInt {n : Int} (h : FitsFloat n) (hbound : |n| ≤ 2 ^ 63) :
    value64 (floatOfInt n) = n := by
  by_cases hn : n = 0
  · rw [hn, value64_floatOfInt_zero, Int.cast_zero]
  · obtain ⟨m, zeros, hm, hdigits⟩ := h
    obtain ⟨k, hk, -⟩ := exists_rounding_floatOfInt hn hbound
    have hpos : 0 < m := by
      rw [Nat.pos_iff_ne_zero]
      rintro rfl
      rw [zero_mul, Int.natAbs_eq_zero] at hdigits
      exact hn hdigits
    obtain ⟨j, hj⟩ := @exists_multiple_shifted .binary64 m hpos hm (by decide) zeros
    have hcast : (n.natAbs : ℚ) = m * 2 ^ zeros := by exact_mod_cast hdigits
    rw [← hcast] at hj
    rw [value64, hk.exact hj, signed_natAbs]

/-- Integers up to `2 ^ 53` are converted exactly. -/
theorem value64_floatOfInt {n : Int} (hbound : |n| ≤ 2 ^ 53) : value64 (floatOfInt n) = n := by
  have hfits : FitsFloat n := by
    rcases hbound.lt_or_eq with hlt | heq
    · exact .of_abs_lt hlt
    · rcases eq_or_eq_neg_of_abs_eq heq with rfl | rfl
      · exact fitsFloat_two_pow 53
      · exact (fitsFloat_two_pow 53).neg
  exact hfits.value64_floatOfInt (hbound.trans (by norm_num))

/-- Narrowing keeps the whole numbers of a size of at most `2 ^ 24`. -/
theorem value32_narrow_of_whole {x : Float} (hlow : -float32Max ≤ x) (hhigh : x ≤ float32Max)
    {n : Int} (hx : value64 x = n) (hbound : |n| ≤ 2 ^ 24) : value32 (narrow x) = n := by
  rw [← hx, value32]
  rcases narrow_cases hlow hhigh with ⟨s, hu, hv⟩ | ⟨s, m, e, hm, k, hu, hk⟩
  · rw [hv, value64, hu]
  · have hvalue : value64 x = signed s (m * 2 ^ e) := by rw [value64, hu]; rfl
    have habs : (m : ℚ) * 2 ^ e = n.natAbs := by
      rw [Nat.cast_natAbs, Int.cast_abs, ← hx, hvalue, abs_signed, abs_of_pos hk.pos]
    have hpos : 0 < n.natAbs := by
      have := hk.pos
      rw [habs] at this
      exact_mod_cast this
    rw [Int.abs_eq_natAbs] at hbound
    have hdigits : n.natAbs ≤ 2 ^ Format.mantissaBits .binary32 := by
      change n.natAbs ≤ 2 ^ 24
      omega
    obtain ⟨j, hj⟩ := exists_multiple hpos hdigits (by decide)
    rw [← habs] at hj
    rw [hvalue, hk.exact hj]

/-! ## Rounding to integers -/

/-- The nearest natural number is at most one half away. -/
theorem nearestNat_near (m : ℕ) (e : Int) : |(m : ℚ) * 2 ^ e - nearestNat m e| ≤ 1 / 2 := by
  unfold nearestNat
  split_ifs with he
  · have hexact : ((m <<< e.toNat : ℕ) : ℚ) = m * 2 ^ e := by
      rw [Nat.shiftLeft_eq, Nat.cast_mul, Nat.cast_pow, Nat.cast_ofNat, ← zpow_natCast,
        Int.toNat_of_nonneg he]
    rw [hexact, sub_self, abs_zero]
    norm_num
  · obtain ⟨places, hplaces⟩ : ∃ places : ℕ, (-e).toNat = places + 1 :=
      ⟨(-e).toNat - 1, by omega⟩
    have hscale : (2 : ℚ) ^ e = (2 ^ (places + 1))⁻¹ := by
      rw [← zpow_natCast, ← zpow_neg, ← hplaces, Int.toNat_of_nonneg (by omega), neg_neg]
    simp only [hplaces, Nat.add_sub_cancel, Nat.shiftLeft_eq, Nat.shiftRight_eq_div_pow, one_mul]
    rw [hscale]
    have hpos : (0 : ℚ) < 2 ^ (places + 1) := by positivity
    have hsplit := Nat.div_add_mod (m + 2 ^ places) (2 ^ (places + 1))
    have hrest : (m + 2 ^ places) % 2 ^ (places + 1) < 2 ^ (places + 1) :=
      Nat.mod_lt _ (by positivity)
    set whole := (m + 2 ^ places) / 2 ^ (places + 1)
    set rest := (m + 2 ^ places) % 2 ^ (places + 1)
    have hsplit : (2 : ℚ) ^ (places + 1) * whole + rest = m + 2 ^ places := by exact_mod_cast hsplit
    have hrest : (rest : ℚ) < 2 ^ (places + 1) := by exact_mod_cast hrest
    have hnonneg : (0 : ℚ) ≤ rest := by positivity
    have hdouble : (2 : ℚ) ^ (places + 1) = 2 * 2 ^ places := by ring
    have hgap : (m : ℚ) * (2 ^ (places + 1))⁻¹ - whole = (rest - 2 ^ places) / 2 ^ (places + 1) := by
      field_simp
      linarith
    rw [hgap, abs_le, le_div_iff₀ hpos, div_le_iff₀ hpos]
    constructor <;> linarith

theorem cast_apply (s : Sign) (n : ℕ) : ((s.apply n : Int) : ℚ) = signed s n := by
  cases s <;> simp [Sign.apply, signed]

theorem apply_nearestNat_near {x : Float} {s : Sign} {m : ℕ} {e : Int} {hm : 0 < m}
    (hu : x.toModel.unpack = .finite s m e hm) :
    |value64 x - (s.apply (nearestNat m e) : Int)| ≤ 1 / 2 := by
  rw [value64, hu, exactValue, cast_apply, signed_sub, abs_signed]
  exact nearestNat_near m e

theorem eq_of_near {a b : Int} (h : |(a : ℚ) - b| ≤ 1 / 2) : a = b := by
  have hless : |((a - b : Int) : ℚ)| < 1 := by
    push_cast
    exact h.trans_lt (by norm_num)
  exact sub_eq_zero.mp (Int.abs_lt_one_iff.mp (by exact_mod_cast hless))

/-- Keeping to a range moves no number farther from those in the range. -/
theorem abs_clamp_sub_le {low high a : Int} (hlow : low ≤ a) (hhigh : a ≤ high) (c : Int) :
    |max low (min high c) - a| ≤ |c - a| := by
  rw [abs_le]
  have := neg_abs_le (c - a)
  have := le_abs_self (c - a)
  omega

section ToInteger

variable {low high : Int}

theorem nearestInt_bounds (hlow : low ≤ 0) (hhigh : 0 ≤ high) (x : Float) :
    low ≤ nearestInt low high x ∧ nearestInt low high x ≤ high := by
  unfold nearestInt
  split <;> omega

/-- Rounding to an integer of a range adds at most one half to the distance from those in the
range. -/
theorem nearestInt_near {a : Int} (hlow : low ≤ a) (hhigh : a ≤ high) {x : Float}
    (hx : x.isFinite = true) :
    |(nearestInt low high x : ℚ) - a| ≤ |value64 x - a| + 1 / 2 := by
  rcases finite_cases hx with ⟨s, hu⟩ | ⟨s, m, e, hm, hu⟩
  · have hzero : nearestInt low high x = 0 := by rw [nearestInt, hu]
    rw [hzero, value64, hu, Int.cast_zero]
    exact le_add_of_nonneg_right (by norm_num)
  · have hround : nearestInt low high x
        = max low (min high (s.apply (nearestNat m e))) := by rw [nearestInt, hu]
    have hclamp := abs_clamp_sub_le hlow hhigh (s.apply (nearestNat m e))
    have hnear := apply_nearestNat_near hu
    set c : Int := s.apply (nearestNat m e)
    calc |(nearestInt low high x : ℚ) - a| ≤ |(c : ℚ) - a| := by rw [hround]; exact_mod_cast hclamp
      _ = |(value64 x - a) - (value64 x - c)| := by ring_nf
      _ ≤ |value64 x - a| + |value64 x - c| := abs_sub _ _
      _ ≤ |value64 x - a| + 1 / 2 := by linarith

/-- A number that is an integer of the range becomes that integer. -/
theorem nearestInt_of_whole {a : Int} (hlow : low ≤ a) (hhigh : a ≤ high) {x : Float}
    (hx : x.isFinite = true) (ha : value64 x = a) : nearestInt low high x = a := by
  have hnear := nearestInt_near hlow hhigh hx
  rw [ha, sub_self, abs_zero, zero_add] at hnear
  exact eq_of_near hnear

/-- A number that is an integer is moved into the range and no farther. -/
theorem nearestInt_of_integer {a : Int} (hlow : low ≤ 0) (hhigh : 0 ≤ high) {x : Float}
    (hx : x.isFinite = true) (ha : value64 x = a) :
    nearestInt low high x = max low (min high a) := by
  rcases finite_cases hx with ⟨s, hu⟩ | ⟨s, m, e, hm, hu⟩
  · have hvalue : value64 x = 0 := by rw [value64, hu]; rfl
    obtain rfl : a = 0 := by exact_mod_cast ha.symm.trans hvalue
    rw [nearestInt, hu]
    dsimp only
    omega
  · have hnear := apply_nearestNat_near hu
    rw [ha] at hnear
    rw [nearestInt, hu, eq_of_near hnear]

end ToInteger

/-! ## Integer types -/

/-- An element type that consists of the integers of a range, none with more than 64 bits. -/
structure Integers (α : Type) [Element α] where
  toInt : α → Int
  low : Int
  high : Int
  injective : Function.Injective toInt
  bounds : ∀ v, low ≤ toInt v ∧ toInt v ≤ high
  fits : ∀ v, |toInt v| ≤ 2 ^ 63
  toFloat_eq : ∀ v, Element.toFloat v = floatOfInt (toInt v)
  toInt_ofFloat : ∀ x, toInt (Element.ofFloat x) = nearestInt low high x

namespace Integers

/-- The integers of 32 binary digits. -/
def int32 : Integers Int32 where
  toInt := Int32.toInt
  low := Int32.minValue.toInt
  high := Int32.maxValue.toInt
  injective _ _ := Int32.toInt.inj
  bounds v := ⟨v.le_toInt, Int.le_sub_one_of_lt v.toInt_lt⟩
  fits v := by
    have hlow := v.le_toInt
    have hhigh := v.toInt_lt
    rw [abs_le]
    omega
  toFloat_eq _ := rfl
  toInt_ofFloat x := by
    obtain ⟨hlow, hhigh⟩ := @nearestInt_bounds Int32.minValue.toInt Int32.maxValue.toInt
      (by decide) (by decide) x
    exact Int32.toInt_ofInt_of_le hlow (Int.lt_of_le_sub_one hhigh)

/-- The integers of 64 binary digits. -/
def int64 : Integers Int64 where
  toInt := Int64.toInt
  low := Int64.minValue.toInt
  high := Int64.maxValue.toInt
  injective _ _ := Int64.toInt.inj
  bounds v := ⟨v.le_toInt, Int.le_sub_one_of_lt v.toInt_lt⟩
  fits v := by
    have hlow := v.le_toInt
    have hhigh := v.toInt_lt
    rw [abs_le]
    omega
  toFloat_eq _ := rfl
  toInt_ofFloat x := by
    obtain ⟨hlow, hhigh⟩ := @nearestInt_bounds Int64.minValue.toInt Int64.maxValue.toInt
      (by decide) (by decide) x
    exact Int64.toInt_ofInt_of_le hlow (Int.lt_of_le_sub_one hhigh)

variable {α : Type} [Element α] (I : Integers α)
include I

theorem toFloat_range (v : α) :
    -float32Max ≤ Element.toFloat v ∧ Element.toFloat v ≤ float32Max := by
  rw [I.toFloat_eq]
  exact floatOfInt_range (I.fits v)

end Integers

end NeighborSearch
