import NeighborSearch.Proofs.StoredRange

/-!
# Elements and their widenings

Every element is widened to a binary64 number before it is looked at. Floating-point elements and
32-bit integers keep their exact values by that, and come back. A 64-bit integer does so only if it
has at most 53 binary digits apart from zeros at its end; any other one is rounded, to a number that
it shares with another integer: `ElementType.widens_exactly_iff`.
-/

namespace NeighborSearch

open Float.Model (Format UnpackedFloat)
open Float.Model.UnpackedFloat

/-! ## Integers that are numbers of binary64 -/

/-- A number whose value is an integer has few digits. -/
theorem fitsFloat_of_value {x : Float} (hx : x.isFinite = true) {n : Int} (h : value64 x = n) :
    FitsFloat n := by
  have hrepresentable := representable64 x
  rcases finite_cases hx with ⟨s, hu⟩ | ⟨s, m, e, hm, hu⟩
  · have hzero : value64 x = 0 := by rw [value64, hu]; rfl
    obtain rfl : n = 0 := by exact_mod_cast h.symm.trans hzero
    exact .of_abs_lt (by norm_num)
  · rw [hu] at hrepresentable
    have hfits : m < 2 * binade .binary64 := hrepresentable.1.fits
    rw [binade_binary64] at hfits
    have hsize : (n.natAbs : ℚ) = m * 2 ^ e := by
      rw [Nat.cast_natAbs, Int.cast_abs, ← h, value64, hu, exactValue, abs_signed,
        abs_of_pos (by positivity)]
    rcases le_or_gt 0 e with he | he
    · rw [← Int.toNat_of_nonneg he, zpow_natCast] at hsize
      exact ⟨m, e.toNat, hfits, by exact_mod_cast hsize⟩
    · have hle : (n.natAbs : ℚ) ≤ m := by
        rw [hsize]
        exact mul_le_of_le_one_right (by positivity) (zpow_le_one_of_nonpos₀ (by norm_num) he.le)
      have hle : n.natAbs ≤ m := by exact_mod_cast hle
      exact ⟨n.natAbs, 0, hle.trans_lt hfits, by rw [pow_zero, mul_one]⟩

theorem isFinite_floatOfInt {n : Int} (hbound : |n| ≤ 2 ^ 63) : (floatOfInt n).isFinite = true := by
  obtain ⟨hlow, hhigh⟩ := floatOfInt_range hbound
  exact isFinite_of_range hlow hhigh

/-- Conversion of an integer is exact only if its digits fit. -/
theorem value64_floatOfInt_eq_iff {n : Int} (hbound : |n| ≤ 2 ^ 63) :
    value64 (floatOfInt n) = n ↔ FitsFloat n :=
  ⟨fitsFloat_of_value (isFinite_floatOfInt hbound), fun h => h.value64_floatOfInt hbound⟩

/-- An integer is rounded to an integer. -/
theorem exists_whole_floatOfInt {n : Int} (hbound : |n| ≤ 2 ^ 63) :
    ∃ w : Int, value64 (floatOfInt n) = w := by
  rcases le_or_gt |n| (2 ^ 53) with hsmall | hlarge
  · exact ⟨n, value64_floatOfInt hsmall⟩
  · have hn : n ≠ 0 := by
      rintro rfl
      norm_num at hlarge
    obtain ⟨k, hk, -⟩ := exists_rounding_floatOfInt hn hbound
    have hexp := exponentFor_eq .binary64 (n.natAbs : ℚ)
    have hlog : (53 : ℤ) ≤ Int.log 2 (n.natAbs : ℚ) := by
      rw [← Int.zpow_le_iff_le_log (by norm_num) hk.pos]
      rw [Int.abs_eq_natAbs] at hlarge
      have hnat : 2 ^ 53 ≤ n.natAbs := by omega
      exact_mod_cast hnat
    have hbits : Format.mantissaBits .binary64 = 53 := rfl
    set t := exponentFor .binary64 (n.natAbs : ℚ)
    have hunit : 0 ≤ t := by omega
    refine ⟨(intSign n).apply (k * 2 ^ t.toNat : ℕ), ?_⟩
    rw [value64, hk.value, cast_apply]
    push_cast
    rw [← zpow_natCast, Int.toNat_of_nonneg hunit]

/-- No integer with few digits is nearer than the number that an integer is rounded to. -/
theorem abs_sub_floatOfInt_le {n b : Int} (hbound : |n| ≤ 2 ^ 63) (hb : FitsFloat b)
    (hb' : |b| ≤ 2 ^ 63) : |(n : ℚ) - value64 (floatOfInt n)| ≤ |(n : ℚ) - b| := by
  by_cases hn : n = 0
  · subst hn
    rw [value64_floatOfInt_zero, Int.cast_zero, sub_zero, abs_zero]
    exact abs_nonneg _
  · obtain ⟨k, hk, -⟩ := exists_rounding_floatOfInt hn hbound
    have hnear := (hk.no_nearer (representable64 (floatOfInt b)) (isFinite_floatOfInt hb')).1
    rwa [signed_natAbs, ← value64, ← value64, hb.value64_floatOfInt hb'] at hnear

/-- Only one number has the value of an integer other than zero. -/
theorem floatOfInt_eq_of_value {x : Float} {w : Int} (hw : w ≠ 0) (hx : x.isFinite = true)
    (h : value64 x = w) : floatOfInt w = x := by
  have hrepresentable := representable64 x
  have hback := ofModel_pack_unpack64 x
  rcases finite_cases hx with ⟨s, hu⟩ | ⟨s, m, e, hm, hu⟩
  · have hvalue : value64 x = 0 := by rw [value64, hu]; rfl
    exact absurd (by exact_mod_cast h.symm.trans hvalue) hw
  · rw [hu] at hrepresentable hback
    have hpos : (0 : ℚ) < m * 2 ^ e := by positivity
    rw [value64, hu, exactValue] at h
    have hsize : (w.natAbs : ℚ) * 2 ^ (0 : ℤ) = m * 2 ^ e := by
      rw [zpow_zero, mul_one, Nat.cast_natAbs, Int.cast_abs, ← h, abs_signed, abs_of_pos hpos]
    have hsign : intSign w = s := by
      unfold intSign
      cases s with
      | positive =>
        have : (0 : ℚ) < w := h ▸ hpos
        rw [if_neg (by exact_mod_cast this.le.not_gt)]
      | negative =>
        have : (w : ℚ) < 0 := h ▸ neg_lt_zero.mpr hpos
        rw [if_pos (by exact_mod_cast this)]
    calc floatOfInt w = .ofModel (.pack (UnpackedFloat.ofInt .binary64 w)) := rfl
      _ = x := by
        rw [ofInt_eq_round hw, hrepresentable.1.round_eq hm (Int.natAbs_pos.mpr hw) hsize, hsign,
          hback]

/-! ## Elements that come back -/

/-- An element can be had back from its widening, which has its exact value. -/
structure Lossless {α : Type} [Element α] (value : α → ℚ) (v : α) : Prop where
  back : Element.ofFloat (Element.toFloat v) = v
  exact : value64 (Element.toFloat v) = value v

namespace Integers

variable {α : Type} [Element α] (I : Integers α)
include I

theorem lossless_iff (v : α) :
    Lossless (fun v => (I.toInt v : ℚ)) v ↔ FitsFloat (I.toInt v) := by
  have hvalue := value64_floatOfInt_eq_iff (I.fits v)
  rw [← I.toFloat_eq] at hvalue
  refine ⟨fun h => hvalue.mp h.exact, fun h => ⟨I.injective ?_, hvalue.mpr h⟩⟩
  rw [I.toInt_ofFloat]
  refine nearestInt_of_whole (I.bounds v).1 (I.bounds v).2 ?_ (hvalue.mpr h)
  rw [I.toFloat_eq]
  exact isFinite_floatOfInt (I.fits v)

end Integers

/-! ## Integers of 64 bits -/

theorem abs_toInt64_le (v : Int64) : |v.toInt| ≤ 2 ^ 63 := Integers.int64.fits v

theorem toInt64_ofFloat (x : Float) :
    (Element.ofFloat x : Int64).toInt = nearestInt (-2 ^ 63) (2 ^ 63 - 1) x :=
  Integers.int64.toInt_ofFloat x

/-- The widening of a 64-bit integer is an integer no larger than `2 ^ 63`, which is zero only for
zero. -/
theorem exists_widening_int64 (v : Int64) : ∃ w : Int, value64 (floatOfInt v.toInt) = w ∧
    |w| ≤ 2 ^ 63 ∧ (v.toInt ≠ 0 → w ≠ 0) := by
  have hbound := abs_toInt64_le v
  obtain ⟨w, hw⟩ := exists_whole_floatOfInt hbound
  have hnear : ∀ b : Int, FitsFloat b → |b| ≤ 2 ^ 63 → |v.toInt - w| ≤ |v.toInt - b| := by
    intro b hb hb'
    have h := abs_sub_floatOfInt_le hbound hb hb'
    rw [hw] at h
    exact_mod_cast h
  have hhigh := hnear (2 ^ 63) (fitsFloat_two_pow 63) (by norm_num)
  have hlow := hnear (-2 ^ 63) (fitsFloat_two_pow 63).neg (by norm_num)
  have habove := hnear 1 (.of_abs_lt (by norm_num)) (by norm_num)
  have hbelow := hnear (-1) (.of_abs_lt (by norm_num)) (by norm_num)
  simp only [abs_le, le_abs] at hbound hhigh hlow habove hbelow ⊢
  refine ⟨w, hw, ?_, ?_⟩ <;> omega

theorem eq_maxValue_iff (v : Int64) : v = Int64.maxValue ↔ (v.toInt : ℚ) = 2 ^ 63 - 1 := by
  rw [← Int64.toInt_inj]
  change v.toInt = 2 ^ 63 - 1 ↔ _
  exact_mod_cast Iff.rfl

/-- A 64-bit integer comes back if it has few digits, or if it is the largest one, which is rounded
up and kept to the range. -/
theorem back_int64_iff (v : Int64) : Element.ofFloat (Element.toFloat v) = v ↔
    FitsFloat v.toInt ∨ v = Int64.maxValue := by
  constructor
  · intro hback
    obtain ⟨w, hw, hsize, -⟩ := exists_widening_int64 v
    have hround : v.toInt = max (-2 ^ 63) (min (2 ^ 63 - 1) w) := by
      rw [← nearestInt_of_integer (by norm_num) (by norm_num)
        (isFinite_floatOfInt (abs_toInt64_le v)) hw, ← toInt64_ofFloat]
      exact congrArg Int64.toInt hback.symm
    rw [abs_le] at hsize
    rcases le_or_gt w (2 ^ 63 - 1) with hle | hgt
    · left
      rw [← value64_floatOfInt_eq_iff (abs_toInt64_le v), hw]
      congr 1
      omega
    · right
      refine Int64.toInt.inj ?_
      change v.toInt = 2 ^ 63 - 1
      omega
  · rintro (h | rfl)
    · exact ((Integers.int64.lossless_iff v).mpr h).back
    · decide +kernel

/-- An integer with too many digits has its widening in common with another one. -/
theorem exists_same_widening {v : Int64} (h : ¬FitsFloat v.toInt) :
    ∃ w : Int64, w ≠ v ∧ (Element.toFloat w : Float) = Element.toFloat v := by
  obtain ⟨n, hn, hsize, hzero⟩ := exists_widening_int64 v
  have hfinite := isFinite_floatOfInt (abs_toInt64_le v)
  have hne : v.toInt ≠ 0 := fun hv => h (hv ▸ .of_abs_lt (by norm_num))
  have hmoved : n ≠ v.toInt := fun heq =>
    h ((value64_floatOfInt_eq_iff (abs_toInt64_le v)).mp (heq ▸ hn))
  have hsame : floatOfInt n = floatOfInt v.toInt := floatOfInt_eq_of_value (hzero hne) hfinite hn
  rw [abs_le] at hsize
  rcases le_or_gt n (2 ^ 63 - 1) with hle | hgt
  · have hback : (Int64.ofInt n).toInt = n := Int64.toInt_ofInt_of_le hsize.1 (by omega)
    refine ⟨.ofInt n, fun heq => hmoved (by rw [← heq, hback]), ?_⟩
    change floatOfInt (Int64.ofInt n).toInt = floatOfInt v.toInt
    rw [hback, hsame]
  · obtain rfl : n = 2 ^ 63 := by omega
    have hlargest : floatOfInt Int64.maxValue.toInt = floatOfInt (2 ^ 63) := by decide +kernel
    have hnext : floatOfInt (Int64.maxValue - 1).toInt = floatOfInt (2 ^ 63) := by decide +kernel
    by_cases hv : v = Int64.maxValue
    · exact ⟨Int64.maxValue - 1, by rw [hv]; decide, hnext.trans hsame⟩
    · exact ⟨Int64.maxValue, Ne.symm hv, hlargest.trans hsame⟩

/-! ## All element types -/

theorem lossless_float32 (v : Float32) : Lossless value32 v :=
  ⟨narrow_widen v, value64_widen v⟩

theorem lossless_int32 (v : Int32) : Lossless (fun v => (v.toInt : ℚ)) v := by
  refine (Integers.int32.lossless_iff v).mpr (.of_abs_lt ?_)
  have hlow := v.le_toInt
  have hhigh := v.toInt_lt
  change |v.toInt| < 2 ^ 53
  rw [abs_lt]
  omega

/-- Elements that can be had back have different widenings. -/
theorem Lossless.toFloat_inj {α : Type} [Element α] {value : α → ℚ} {v w : α}
    (hv : Lossless value v) (hw : Lossless value w) :
    Element.toFloat w = Element.toFloat v ↔ w = v := by
  refine ⟨fun heq => ?_, congrArg _⟩
  rw [← hw.back, heq, hv.back]

namespace ElementType

/-- The elements of each type. -/
def Carrier : ElementType → Type
  | .float32 => Float32
  | .float64 => Float
  | .int32 => Int32
  | .int64 => Int64

instance : (t : ElementType) → Element t.Carrier
  | .float32 => inferInstanceAs (Element Float32)
  | .float64 => inferInstanceAs (Element Float)
  | .int32 => inferInstanceAs (Element Int32)
  | .int64 => inferInstanceAs (Element Int64)

/-- The exact value of an element. -/
def value : (t : ElementType) → t.Carrier → ℚ
  | .float32 => value32
  | .float64 => value64
  | .int32 => fun v : Int32 => v.toInt
  | .int64 => fun v : Int64 => v.toInt

/-- The element has no more digits than a binary64 number. All but 64-bit integers are so. -/
def Fits : (t : ElementType) → t.Carrier → Prop
  | .float32, _ | .float64, _ | .int32, _ => True
  | .int64, v => FitsFloat (Int64.toInt v)

variable {t : ElementType}

/-- Widening loses nothing exactly where the element fits binary64. -/
theorem lossless_iff_fits (v : t.Carrier) : Lossless t.value v ↔ t.Fits v := by
  cases t with
  | float32 => exact iff_of_true (lossless_float32 v) trivial
  | float64 => exact iff_of_true ⟨rfl, rfl⟩ trivial
  | int32 => exact iff_of_true (lossless_int32 v) trivial
  | int64 => exact Integers.int64.lossless_iff v

/-- An element comes back exactly if it fits, or if it is the largest integer, which the way back
cuts off at. -/
theorem back_iff_fits_or_largest (v : t.Carrier) : Element.ofFloat (Element.toFloat v) = v ↔
    t.Fits v ∨ t.value v = 2 ^ 63 - 1 := by
  cases t with
  | float32 => exact iff_of_true (narrow_widen v) (Or.inl trivial)
  | float64 => exact iff_of_true rfl (Or.inl trivial)
  | int32 => exact iff_of_true (lossless_int32 v).back (Or.inl trivial)
  | int64 => exact (back_int64_iff v).trans (or_congr_right (eq_maxValue_iff v))

/-- An element that does not fit shares its wide form with another one. -/
theorem exists_shared_widening {v : t.Carrier} (h : ¬t.Fits v) :
    ∃ w, w ≠ v ∧ Element.toFloat w = Element.toFloat v := by
  cases t with
  | float32 | float64 | int32 => exact absurd trivial h
  | int64 => exact exists_same_widening h

/-- The range check refuses elements of binary64 only, and names the exact value of the first. -/
theorem toFloat32_eq_error_iff (x : Matrix t.Carrier) (err : Error) :
    x.toFloat32 true = .error err ↔ t = .float64 ∧ ∃ u, x.FirstOutOfRange u ∧ Lossless t.value u ∧
      err = Matrix.conversionError t (Matrix.rangeReason (Element.toFloat u)) := by
  have hstored : ∀ stored, x.toFloat32 true = .ok stored → x.toFloat32 true ≠ .error err :=
    fun stored hok herr => by cases hok.symm.trans herr
  cases t with
  | float32 => exact iff_of_false (hstored x (Matrix.toFloat32_float32 x true)) nofun
  | float64 =>
    rw [(Matrix.conversionSpec (by decide) x).names_first]
    constructor
    · rintro ⟨u, hu, herr⟩
      exact ⟨rfl, u, hu, ⟨rfl, rfl⟩, herr⟩
    · rintro ⟨-, u, hu, -, herr⟩
      exact ⟨u, hu, herr⟩
  | int32 =>
    obtain ⟨stored, hok, -⟩ := Matrix.exists_toFloat32_of_integers .int32 x
    exact iff_of_false (hstored stored hok) nofun
  | int64 =>
    obtain ⟨stored, hok, -⟩ := Matrix.exists_toFloat32_of_integers .int64 x
    exact iff_of_false (hstored stored hok) nofun

/-- An element of any type comes back from its widening, which has its exact value, exactly if it
has no more digits than a binary64 number. All but some 64-bit integers are so, and their widenings
are different for different elements. Any other 64-bit integer shares its widening, and only the
largest one comes back from it. Where the range check refuses an element it sees the exact value,
and names that element. -/
theorem widens_exactly_iff (v : t.Carrier) (x : Matrix t.Carrier) :
    (Lossless t.value v ↔ t.Fits v) ∧
    (Element.ofFloat (Element.toFloat v) = v ↔ t.Fits v ∨ t.value v = 2 ^ 63 - 1) ∧
    (t.Fits v → ∀ w, t.Fits w → (Element.toFloat w = Element.toFloat v ↔ w = v)) ∧
    (¬t.Fits v → ∃ w, w ≠ v ∧ Element.toFloat w = Element.toFloat v) ∧
    ∀ err : Error, x.toFloat32 true = .error err ↔
      t = .float64 ∧ ∃ u, x.FirstOutOfRange u ∧ Lossless t.value u ∧
        err = Matrix.conversionError t (Matrix.rangeReason (Element.toFloat u)) := by
  refine ⟨lossless_iff_fits v, back_iff_fits_or_largest v, ?_, exists_shared_widening,
    toFloat32_eq_error_iff x⟩
  intro hv w hw
  exact ((lossless_iff_fits v).mpr hv).toFloat_inj ((lossless_iff_fits w).mpr hw)

/-- Large integers of few digits, and the integer after `2 ^ 53`, which has one digit too many. -/
theorem large_integers_widen :
    Lossless (value .int64) (6917529027641081856 : Int64) ∧
    Lossless (value .int64) Int64.minValue ∧
    Element.ofFloat (Element.toFloat Int64.maxValue) = Int64.maxValue ∧
    ¬Lossless (value .int64) (9007199254740993 : Int64) ∧
    ∃ w : Int64, w ≠ 9007199254740993 ∧
      (Element.toFloat w : Float) = Element.toFloat (9007199254740993 : Int64) := by
  have h := fun v : Int64 => @widens_exactly_iff .int64 v ⟨0, 0, #[]⟩
  have hlong : ¬FitsFloat (9007199254740993 : Int64).toInt := by
    intro hfits
    have hlost : Element.ofFloat (Element.toFloat (9007199254740993 : Int64))
        ≠ (9007199254740993 : Int64) := by decide +kernel
    exact hlost ((h 9007199254740993).2.1.mpr (Or.inl hfits))
  refine ⟨(h _).1.mpr ⟨3, 61, by norm_num, by decide⟩, (h _).1.mpr ⟨1, 63, by norm_num, by decide⟩,
    (h Int64.maxValue).2.1.mpr (Or.inr ((eq_maxValue_iff _).mp rfl)),
    fun hlossless => hlong ((h _).1.mp hlossless), (h _).2.2.2.1 hlong⟩

end ElementType

/-- The integer after `2 ^ 53` is widened to that power, and comes back as that. -/
theorem next_integer_lost :
    (Element.toFloat (9007199254740993 : Int64) : Float)
      = Element.toFloat (9007199254740992 : Int64) ∧
    Element.ofFloat (Element.toFloat (9007199254740993 : Int64)) = (9007199254740992 : Int64) ∧
    (9007199254740992 : Int64) ≠ 9007199254740993 ∧
    ¬∀ v : Int64, Element.ofFloat (Element.toFloat v) = v := by
  have hlost : Element.ofFloat (Element.toFloat (9007199254740993 : Int64))
      = (9007199254740992 : Int64) := by decide +kernel
  refine ⟨by decide +kernel, hlost, by decide, fun h => ?_⟩
  have hback := h 9007199254740993
  rw [hlost] at hback
  exact absurd hback (by decide)

end NeighborSearch
