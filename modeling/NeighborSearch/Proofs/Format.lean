import NeighborSearch.Precision
import Mathlib

/-!
# Number formats

A value of a format is given a *place*: how many values lie between it and zero, counted with the
sign. Normalised numbers compare as their places do, the place of an unpacked number is its bit
pattern below the sign, and packing keeps every normalised number whose place comes before
infinity. Numbers of binary64 and of binary32 are thereby ordered by their places.
-/

namespace NeighborSearch

open Float.Model (Format UnpackedFloat)
open Float.Model.UnpackedFloat

variable {format : Format}

/-! ## Places -/

/-- The number of values that share an exponent. -/
def binade (format : Format) : Nat := 2 ^ format.mantissaBitsWithoutImplicit

/-- How far infinity lies from zero, counted in values of the format. -/
def infinityPlace (format : Format) : Int := (2 ^ format.exponentBits - 1) * binade format

/-- How far a finite magnitude lies from zero, counted in values of the format. -/
def finitePlace (format : Format) (significand : Nat) (exponent : Int) : Int :=
  (exponent - format.minExponent) * binade format + significand

/-- Where a value stands in the numerical order of its format; both zeros stand at 0. -/
def place (format : Format) : UnpackedFloat → Int
  | .notANumber => 0
  | .zero _ => 0
  | .infinity sign => sign.apply (infinityPlace format)
  | .finite sign significand exponent _ => sign.apply (finitePlace format significand exponent)

/-- The significand has as many digits as the format allows, or the exponent is the least one. -/
structure Normalised (format : Format) (significand : Nat) (exponent : Int) : Prop where
  least : format.minExponent ≤ exponent
  fits : significand < 2 * binade format
  leading : exponent = format.minExponent ∨ binade format ≤ significand

/-- A value that packing does not change: every finite one is normalised and below infinity. -/
def Representable (format : Format) : UnpackedFloat → Prop
  | .finite _ significand exponent _ =>
    Normalised format significand exponent ∧
      finitePlace format significand exponent < infinityPlace format
  | _ => True

theorem binade_pos (format : Format) : 0 < binade format := Nat.two_pow_pos _

theorem minExponent_eq (format : Format) :
    format.minExponent = 1 - (format.exponentBias : Int) - format.mantissaBitsWithoutImplicit := by
  have hpow : 1 ≤ 2 ^ (format.exponentBits - 1) := Nat.one_le_two_pow
  simp only [Format.minExponent, Format.exponentBias, Format.mantissaBits]
  push_cast [Nat.cast_sub hpow]
  ring

theorem infinityPlace_pos (format : Format) : 0 < infinityPlace format := by
  have hone : 1 < 2 ^ format.exponentBits := Nat.one_lt_two_pow format.he.ne'
  have hbinade := binade_pos format
  have : (0 : Int) < 2 ^ format.exponentBits - 1 := by
    have : ((1 : Nat) : Int) < ((2 ^ format.exponentBits : Nat) : Int) := by exact_mod_cast hone
    push_cast at this
    omega
  exact Int.mul_pos this (by exact_mod_cast hbinade)

theorem minExponent_binary64 : Format.minExponent .binary64 = -1074 := by decide

theorem minExponent_binary32 : Format.minExponent .binary32 = -149 := by decide

theorem binade_binary64 : binade .binary64 = 2 ^ 52 := by decide

theorem binade_binary32 : binade .binary32 = 2 ^ 23 := by decide

theorem infinityPlace_binary64 : infinityPlace .binary64 = 2047 * 2 ^ 52 := by decide

theorem infinityPlace_binary32 : infinityPlace .binary32 = 255 * 2 ^ 23 := by decide

theorem Normalised.place_pos {m : Nat} {e : Int} (h : Normalised format m e) (hm : 0 < m) :
    0 < finitePlace format m e := by
  have hsteps : 0 ≤ (e - format.minExponent) * (binade format : Int) :=
    Int.mul_nonneg (by have := h.least; omega) (by omega)
  unfold finitePlace
  omega

/-- A larger exponent outweighs every significand. -/
theorem Normalised.place_lt_of_exponent_lt {m₁ m₂ : Nat} {e₁ e₂ : Int}
    (h₁ : Normalised format m₁ e₁) (h₂ : Normalised format m₂ e₂) (he : e₁ < e₂) :
    finitePlace format m₁ e₁ < finitePlace format m₂ e₂ := by
  have hfits := h₁.fits
  have hleading : binade format ≤ m₂ := h₂.leading.resolve_left (by have := h₁.least; omega)
  have hsteps : (e₁ + 1 - format.minExponent) * (binade format : Int)
      ≤ (e₂ - format.minExponent) * (binade format : Int) :=
    Int.mul_le_mul_of_nonneg_right (by omega) (by omega)
  have hsplit : (e₁ + 1 - format.minExponent) * (binade format : Int)
      = (e₁ - format.minExponent) * (binade format : Int) + binade format := by ring
  unfold finitePlace
  omega

/-- Exponents first and then significands: this is the order of the places. -/
theorem Normalised.compare_eq {m₁ m₂ : Nat} {e₁ e₂ : Int}
    (h₁ : Normalised format m₁ e₁) (h₂ : Normalised format m₂ e₂) :
    (compare e₁ e₂).then (compare m₁ m₂)
      = compare (finitePlace format m₁ e₁) (finitePlace format m₂ e₂) := by
  rcases lt_trichotomy e₁ e₂ with he | rfl | he
  · rw [compare_lt_iff_lt.mpr he, compare_lt_iff_lt.mpr (h₁.place_lt_of_exponent_lt h₂ he)]
    rfl
  · rw [compare_eq_iff_eq.mpr rfl]
    simp only [Ordering.then, finitePlace]
    rcases lt_trichotomy m₁ m₂ with hm | rfl | hm
    · rw [compare_lt_iff_lt.mpr hm, compare_lt_iff_lt.mpr (by omega)]
    · rw [compare_eq_iff_eq.mpr rfl, compare_eq_iff_eq.mpr rfl]
    · rw [compare_gt_iff_gt.mpr hm, compare_gt_iff_gt.mpr (by omega)]
  · rw [compare_gt_iff_gt.mpr he, compare_gt_iff_gt.mpr (h₂.place_lt_of_exponent_lt h₁ he)]
    rfl

theorem compare_neg (a b : Int) : compare (-a) (-b) = (compare a b).swap := by
  rcases lt_trichotomy a b with h | rfl | h
  · rw [compare_lt_iff_lt.mpr h, compare_gt_iff_gt.mpr (by omega)]; rfl
  · rw [compare_eq_iff_eq.mpr rfl, compare_eq_iff_eq.mpr rfl]; rfl
  · rw [compare_gt_iff_gt.mpr h, compare_lt_iff_lt.mpr (by omega)]; rfl

theorem eq_some_compare_of_lt {a b : Int} (h : a < b) : some Ordering.lt = some (compare a b) := by
  rw [compare_lt_iff_lt.mpr h]

theorem eq_some_compare_of_gt {a b : Int} (h : b < a) : some Ordering.gt = some (compare a b) := by
  rw [compare_gt_iff_gt.mpr h]

theorem eq_some_compare_of_eq {a b : Int} (h : a = b) : some Ordering.eq = some (compare a b) := by
  rw [compare_eq_iff_eq.mpr h]

/-- Values compare as their places do. -/
theorem compare_eq_compare_place {u v : UnpackedFloat} (hu : Representable format u)
    (hv : Representable format v) (hun : u.isNaN = false) (hvn : v.isNaN = false) :
    u.compare v = some (compare (place format u) (place format v)) := by
  have hinf := infinityPlace_pos format
  cases u with
  | notANumber => simp [UnpackedFloat.isNaN] at hun
  | infinity s =>
    cases v with
    | notANumber => simp [UnpackedFloat.isNaN] at hvn
    | infinity s' =>
      cases s <;> cases s'
      · exact eq_some_compare_of_eq rfl
      · exact eq_some_compare_of_lt (by simp only [place, Sign.apply]; omega)
      · exact eq_some_compare_of_gt (by simp only [place, Sign.apply]; omega)
      · exact eq_some_compare_of_eq rfl
    | zero s' =>
      cases s
      · exact eq_some_compare_of_lt (by simp only [place, Sign.apply]; omega)
      · exact eq_some_compare_of_gt (by simp only [place, Sign.apply]; omega)
    | finite s' m e hm =>
      have hpos := hv.1.place_pos hm
      have hlt := hv.2
      cases s
      · exact eq_some_compare_of_lt (by cases s' <;> simp only [place, Sign.apply] <;> omega)
      · exact eq_some_compare_of_gt (by cases s' <;> simp only [place, Sign.apply] <;> omega)
  | zero s =>
    cases v with
    | notANumber => simp [UnpackedFloat.isNaN] at hvn
    | infinity s' =>
      cases s'
      · exact eq_some_compare_of_gt (by simp only [place, Sign.apply]; omega)
      · exact eq_some_compare_of_lt (by simp only [place, Sign.apply]; omega)
    | zero s' => exact eq_some_compare_of_eq rfl
    | finite s' m e hm =>
      have hpos := hv.1.place_pos hm
      cases s'
      · exact eq_some_compare_of_gt (by simp only [place, Sign.apply]; omega)
      · exact eq_some_compare_of_lt (by simp only [place, Sign.apply]; omega)
  | finite s m e hm =>
    have hpos := hu.1.place_pos hm
    have hlt := hu.2
    cases v with
    | notANumber => simp [UnpackedFloat.isNaN] at hvn
    | infinity s' =>
      cases s' <;> cases s
      · exact eq_some_compare_of_gt (by simp only [place, Sign.apply]; omega)
      · exact eq_some_compare_of_gt (by simp only [place, Sign.apply]; omega)
      · exact eq_some_compare_of_lt (by simp only [place, Sign.apply]; omega)
      · exact eq_some_compare_of_lt (by simp only [place, Sign.apply]; omega)
    | zero s' =>
      cases s
      · exact eq_some_compare_of_lt (by simp only [place, Sign.apply]; omega)
      · exact eq_some_compare_of_gt (by simp only [place, Sign.apply]; omega)
    | finite s' m' e' hm' =>
      have hpos' := hv.1.place_pos hm'
      cases s <;> cases s'
      · simp only [UnpackedFloat.compare, place, Sign.apply, hu.1.compare_eq hv.1, compare_neg]
      · exact eq_some_compare_of_lt (by simp only [place, Sign.apply]; omega)
      · exact eq_some_compare_of_gt (by simp only [place, Sign.apply]; omega)
      · simp only [UnpackedFloat.compare, place, Sign.apply, hu.1.compare_eq hv.1]

/-! ## Unpacking -/

theorem unpackMantissa_toNat {format : Format} (b : BitVec format.numBits) :
    (unpackMantissa b).toNat = b.toNat % binade format := by
  have := format.hm
  have h : format.mantissaBitsWithoutImplicit - 1 + 1 = format.mantissaBitsWithoutImplicit := by omega
  simp [unpackMantissa, binade, h]

theorem unpackExponent_toNat {format : Format} (b : BitVec format.numBits) :
    (unpackExponent b).toNat = b.toNat / binade format % 2 ^ format.exponentBits := by
  have := format.he
  have h : format.mantissaBitsWithoutImplicit + format.exponentBits - 1
      - format.mantissaBitsWithoutImplicit + 1 = format.exponentBits := by omega
  simp [unpackExponent, binade, h, Nat.shiftRight_eq_div_pow]

theorem eq_neg_one_iff {w : Nat} (x : BitVec w) : x = -1#w ↔ x.toNat + 1 = 2 ^ w := by
  have := Nat.two_pow_pos w
  rw [BitVec.neg_one_eq_allOnes, ← BitVec.toNat_inj, BitVec.toNat_allOnes]
  omega

/-- The bits below the sign are exponent and significand side by side. -/
theorem exponent_append_mantissa (b : BitVec format.numBits) :
    (unpackExponent b).toNat * binade format + (unpackMantissa b).toNat
      = b.toNat % (binade format * 2 ^ format.exponentBits) := by
  rw [unpackExponent_toNat, unpackMantissa_toNat, Nat.mod_mul]
  ring

theorem toNat_implicit (m : BitVec format.mantissaBitsWithoutImplicit) :
    (1#1 ++ m).toNat = binade format + m.toNat := by
  rw [BitVec.toNat_append, ← Nat.shiftLeft_add_eq_or_of_lt m.isLt]
  simp [Nat.shiftLeft_eq, binade]

/-- The fields of a finite number below infinity, put side by side, fall short of infinity. -/
theorem fields_lt_infinityPlace (format : Format) {E M : Nat} (hE : E + 1 < 2 ^ format.exponentBits)
    (hM : M < binade format) : (E * binade format + M : Int) < infinityPlace format := by
  have hcast : ((2 ^ format.exponentBits : Nat) : Int) = 2 ^ format.exponentBits := by push_cast; rfl
  have hsteps : ((E + 1 : Nat) : Int) * binade format
      ≤ (2 ^ format.exponentBits - 1) * (binade format : Int) :=
    Int.mul_le_mul_of_nonneg_right (by omega) (by omega)
  have hsplit : ((E + 1 : Nat) : Int) * binade format
      = (E : Int) * binade format + binade format := by push_cast; ring
  unfold infinityPlace
  omega

/-- A number with the leading digit left out stands where its fields, put side by side, say. -/
theorem finitePlace_normal (format : Format) (E M : Nat) :
    finitePlace format (binade format + M)
        (E - (format.exponentBias + format.mantissaBitsWithoutImplicit : Int))
      = E * binade format + M := by
  rw [finitePlace, minExponent_eq]
  push_cast
  ring

theorem finitePlace_subnormal (format : Format) (M : Nat) :
    finitePlace format M format.minExponent = M := by
  simp [finitePlace]

/-- The sign is read off the topmost bit. -/
theorem ofBitVec_unpackSign (b : BitVec format.numBits) :
    Sign.ofBitVec (unpackSign b)
      = if b.toNat < binade format * 2 ^ format.exponentBits then .positive else .negative := by
  have htop : (unpackSign b).toNat = b.toNat / (binade format * 2 ^ format.exponentBits) % 2 := by
    simp [unpackSign, binade, Nat.shiftRight_eq_div_pow, pow_add]
  have hbits : b.toNat < 2 * (binade format * 2 ^ format.exponentBits) := by
    have := b.isLt
    simpa [Format.numBits, pow_add, binade, mul_comm, mul_left_comm] using this
  have hsign : unpackSign b = 0#1 ↔ b.toNat < binade format * 2 ^ format.exponentBits := by
    rw [← BitVec.toNat_inj, htop, BitVec.toNat_zero]
    constructor
    · intro hzero
      by_contra hge
      rw [Nat.div_eq_of_lt_le (k := 1) (by omega) (by omega)] at hzero
      omega
    · intro hlt
      rw [Nat.div_eq_of_lt hlt]
  simp only [Sign.ofBitVec, hsign]

/-- Whatever bits hold can be represented. -/
theorem representable_unpack (b : BitVec format.numBits) :
    Representable format (unpack format b) := by
  have hmantissa : (unpackMantissa b).toNat < binade format := by
    rw [unpackMantissa_toNat]
    exact Nat.mod_lt _ (binade_pos format)
  have hfits : (unpackExponent b).toNat < 2 ^ format.exponentBits := (unpackExponent b).isLt
  have hleast := minExponent_eq format
  unfold unpack
  simp only [eq_neg_one_iff]
  split_ifs with hall hzero hexp hman
  · trivial
  · trivial
  · trivial
  · have hE : (unpackExponent b).toNat = 0 := by rw [hexp]; rfl
    have he : ((unpackExponent b).toNat : Int)
        - (format.exponentBias + format.mantissaBitsWithoutImplicit) + 1 = format.minExponent := by
      omega
    rw [he]
    refine ⟨⟨le_rfl, by omega, Or.inl rfl⟩, ?_⟩
    have := fields_lt_infinityPlace format (E := 0) (by omega) hmantissa
    rw [finitePlace_subnormal]
    omega
  · have hE : (unpackExponent b).toNat ≠ 0 := fun h => hexp (by
      rw [← BitVec.toNat_inj, h]; rfl)
    change Normalised format _ _ ∧ finitePlace format _ _ < infinityPlace format
    rw [toNat_implicit, finitePlace_normal]
    exact ⟨⟨by omega, by omega, Or.inr (by omega)⟩, fields_lt_infinityPlace format (by omega) hmantissa⟩

/-- A value stands where its bits below the sign, read as a number, say. -/
theorem place_unpack (b : BitVec format.numBits) (hb : (unpack format b).isNaN = false) :
    place format (unpack format b) = (Sign.ofBitVec (unpackSign b)).apply
      (b.toNat % (binade format * 2 ^ format.exponentBits) : Nat) := by
  have hleast := minExponent_eq format
  have hcast : ((2 ^ format.exponentBits : Nat) : Int) = 2 ^ format.exponentBits := by push_cast; rfl
  rw [← exponent_append_mantissa]
  unfold unpack at hb ⊢
  simp only [eq_neg_one_iff] at hb ⊢
  split_ifs at hb ⊢ with hall hzero hexp hman
  · have htop : (2 ^ format.exponentBits - 1 : Int) = (unpackExponent b).toNat := by omega
    simp [place, infinityPlace, hzero, htop]
  · simp [isNaN] at hb
  · cases hs : Sign.ofBitVec (unpackSign b) <;> simp [place, hexp, hman, Sign.apply]
  · have hE : (unpackExponent b).toNat = 0 := by rw [hexp]; rfl
    have he : ((unpackExponent b).toNat : Int)
        - (format.exponentBias + format.mantissaBitsWithoutImplicit) + 1 = format.minExponent := by
      omega
    rw [he, place, finitePlace_subnormal, hE]
    simp
  · rw [place, toNat_implicit, finitePlace_normal]
    push_cast
    rfl

/-! ## Packing -/

@[simp]
theorem unpack_packedInfinity (s : Sign) :
    unpack format (packedInfinity format s) = .infinity s := by
  simp [unpack, packedInfinity]

/-- A format has no room for a normalised number exactly where its place is infinity's or beyond. -/
theorem Normalised.overflow_iff {m : Nat} {e : Int} (h : Normalised format m e)
    (hbits : 1 < format.exponentBits) :
    2 ^ format.exponentBits
        ≤ (e + format.exponentBias + format.mantissaBitsWithoutImplicit).toNat + 1
      ↔ infinityPlace format ≤ finitePlace format m e := by
  have hleast := h.least
  have hfits := h.fits
  have hmin := minExponent_eq format
  have hcast : ((2 ^ format.exponentBits : Nat) : Int) = 2 ^ format.exponentBits := by push_cast; rfl
  obtain ⟨a, ha⟩ : ∃ a : Nat, e - format.minExponent = a :=
    ⟨(e - format.minExponent).toNat, by omega⟩
  have hfour : 2 ^ 2 ≤ 2 ^ format.exponentBits := Nat.pow_le_pow_right (by norm_num) hbits
  have hexp : (e + format.exponentBias + format.mantissaBitsWithoutImplicit).toNat = a + 1 := by
    omega
  rw [hexp, infinityPlace, finitePlace, ha]
  constructor
  · intro hover
    have hleading : binade format ≤ m := h.leading.resolve_left (by omega)
    have hsteps : (2 ^ format.exponentBits - 1 : Int) * binade format
        ≤ (a + 1 : Int) * binade format := Int.mul_le_mul_of_nonneg_right (by omega) (by omega)
    have hsplit : (a + 1 : Int) * binade format = a * binade format + binade format := by ring
    omega
  · intro hplace
    by_contra hroom
    have hsteps : (a + 2 : Int) * binade format
        ≤ (2 ^ format.exponentBits - 1 : Int) * binade format :=
      Int.mul_le_mul_of_nonneg_right (by omega) (by omega)
    have hsplit : (a + 2 : Int) * binade format = a * binade format + 2 * binade format := by ring
    omega

theorem finite_congr {s : Sign} {m m' : Nat} {e e' : Int} {hm : 0 < m} {hm' : 0 < m'}
    (hmm : m = m') (hee : e = e') : UnpackedFloat.finite s m e hm = .finite s m' e' hm' := by
  subst hmm hee
  rfl

/-- A mantissa has all its digits exactly if it reaches the binade. -/
theorem log2_add_one_eq_iff {m : Nat} (hm : 0 < m) (hfits : m < 2 * binade format) :
    m.log2 + 1 = format.mantissaBits ↔ binade format ≤ m := by
  have hlt : m.log2 < format.mantissaBitsWithoutImplicit + 1 := by
    rw [Nat.log2_lt hm.ne', pow_succ]
    unfold binade at hfits
    omega
  have hle := Nat.le_log2 hm.ne' (k := format.mantissaBitsWithoutImplicit)
  unfold Format.mantissaBits binade
  omega

/-- Packing loses nothing of a normalised number that stands below infinity. -/
theorem unpack_pack_finite (s : Sign) {m : Nat} {e : Int} (hm : 0 < m)
    (h : Normalised format m e) (hbits : 1 < format.exponentBits)
    (hlt : finitePlace format m e < infinityPlace format) :
    unpack format (pack format (.finite s m e hm)) = .finite s m e hm := by
  have hroom := mt (h.overflow_iff hbits).mp (by omega)
  have hleast := h.least
  have hfits := h.fits
  have hmin := minExponent_eq format
  set E := (e + format.exponentBias + format.mantissaBitsWithoutImplicit).toNat with hE
  have htoNat : (BitVec.ofNat format.exponentBits E).toNat = E := by
    rw [BitVec.toNat_ofNat, Nat.mod_eq_of_lt (by omega)]
  simp only [pack, log2_add_one_eq_iff hm hfits, ← hE, if_neg hroom]
  split_ifs with hleading
  · have hmantissa : (BitVec.ofNat format.mantissaBitsWithoutImplicit m).toNat = m - binade format := by
      rw [BitVec.toNat_ofNat]
      change m % binade format = _
      rw [Nat.mod_eq_sub_mod hleading, Nat.mod_eq_of_lt (by omega)]
    have hne : BitVec.ofNat format.exponentBits E ≠ 0#_ := by
      rw [Ne, ← BitVec.toNat_inj, htoNat, BitVec.toNat_zero]
      omega
    simp only [unpack, unpackMantissa_packComponents, unpackExponent_packComponents,
      unpackSign_packComponents, Sign.ofBitVec_toBitVec, eq_neg_one_iff, htoNat]
    rw [if_neg (by omega), if_neg hne]
    exact finite_congr (by rw [toNat_implicit, hmantissa]; omega) (by omega)
  · have hleast' : e = format.minExponent := h.leading.resolve_right hleading
    have hmantissa : (BitVec.ofNat format.mantissaBitsWithoutImplicit m).toNat = m := by
      rw [BitVec.toNat_ofNat]
      exact Nat.mod_eq_of_lt (by unfold binade at hleading; omega)
    have hne : BitVec.ofNat format.mantissaBitsWithoutImplicit m ≠ 0#_ := by
      rw [Ne, ← BitVec.toNat_inj, hmantissa, BitVec.toNat_zero]
      omega
    simp only [unpack, unpackMantissa_packComponents, unpackExponent_packComponents,
      unpackSign_packComponents, Sign.ofBitVec_toBitVec, eq_neg_one_iff, BitVec.toNat_zero]
    rw [if_neg (by omega), if_pos trivial, dif_neg hne]
    exact finite_congr hmantissa (by omega)

/-- Packing turns a normalised number that stands at infinity or beyond into infinity. -/
theorem pack_eq_packedInfinity (s : Sign) {m : Nat} {e : Int} (hm : 0 < m)
    (h : Normalised format m e) (hbits : 1 < format.exponentBits)
    (hge : infinityPlace format ≤ finitePlace format m e) :
    pack format (.finite s m e hm) = packedInfinity format s := by
  simp only [pack]
  rw [if_pos ((h.overflow_iff hbits).mpr hge)]

/-! ## The order of numbers -/

/-- Where a binary64 number stands in the numerical order. -/
def place64 (x : Float) : Int := place .binary64 x.toModel.unpack

/-- Where a binary32 number stands in the numerical order. -/
def place32 (x : Float32) : Int := place .binary32 x.toModel.unpack

theorem representable64 (x : Float) : Representable .binary64 x.toModel.unpack :=
  @representable_unpack .binary64 x.toModel.toBits.toBitVec

theorem representable32 (x : Float32) : Representable .binary32 x.toModel.unpack :=
  @representable_unpack .binary32 x.toModel.toBits.toBitVec

/-- Above zero the places are the bit patterns themselves. -/
theorem place64_eq {x : Float} (hx : x.isNaN = false) :
    place64 x = if x.toBits.toNat < 2 ^ 63 then (x.toBits.toNat : Int)
      else 2 ^ 63 - x.toBits.toNat := by
  have hplace := @place_unpack .binary64 x.toModel.toBits.toBitVec hx
  have hbits : x.toBits.toNat < 2 ^ 64 := x.toBits.toNat_lt
  have htop : binade .binary64 * 2 ^ Format.binary64.exponentBits = 2 ^ 63 := rfl
  change place64 x = _ at hplace
  rw [hplace, ofBitVec_unpackSign, htop]
  change (if x.toBits.toNat < 2 ^ 63 then Sign.positive else Sign.negative).apply
    ((x.toBits.toNat % 2 ^ 63 : Nat) : Int) = _
  split_ifs with hlow
  · rw [Nat.mod_eq_of_lt hlow]
    rfl
  · rw [Nat.mod_eq_sub_mod (by omega), Nat.mod_eq_of_lt (by omega)]
    change -((x.toBits.toNat - 2 ^ 63 : Nat) : Int) = _
    omega

/-- Binary64 numbers compare as their places do. -/
theorem compare64 {x y : Float} (hx : x.isNaN = false) (hy : y.isNaN = false) :
    x.toModel.unpack.compare y.toModel.unpack = some (compare (place64 x) (place64 y)) :=
  compare_eq_compare_place (representable64 x) (representable64 y) hx hy

theorem compare32 {x y : Float32} (hx : x.isNaN = false) (hy : y.isNaN = false) :
    x.toModel.unpack.compare y.toModel.unpack = some (compare (place32 x) (place32 y)) :=
  compare_eq_compare_place (representable32 x) (representable32 y) hx hy

theorem lt_iff_place64 {x y : Float} (hx : x.isNaN = false) (hy : y.isNaN = false) :
    x < y ↔ place64 x < place64 y := by
  change decide (x.toModel.unpack.lt y.toModel.unpack = true) = true ↔ _
  simp [UnpackedFloat.lt, compare64 hx hy, compare_lt_iff_lt]

theorem le_iff_place64 {x y : Float} (hx : x.isNaN = false) (hy : y.isNaN = false) :
    x ≤ y ↔ place64 x ≤ place64 y := by
  change decide (x.toModel.unpack.le y.toModel.unpack = true) = true ↔ _
  simp [UnpackedFloat.le, compare64 hx hy, Ordering.isLE_iff_ne_gt, compare_gt_iff_gt]

/-- Numbers that are not NaN are ordered totally. -/
theorem not_lt_iff_le {x y : Float} (hx : x.isNaN = false) (hy : y.isNaN = false) :
    ¬x < y ↔ y ≤ x := by
  rw [lt_iff_place64 hx hy, le_iff_place64 hy hx, not_lt]

/-- Equal numbers share their place, and zero has one place with either sign. -/
theorem beq_iff_place64 {x y : Float} (hx : x.isNaN = false) (hy : y.isNaN = false) :
    x == y ↔ place64 x = place64 y := by
  change x.toModel.unpack.beq y.toModel.unpack = true ↔ _
  simp [UnpackedFloat.beq, compare64 hx hy]

theorem isNaN_zero : (0 : Float).isNaN = false := by decide

theorem place64_zero : place64 0 = 0 := by decide

theorem nonneg_iff_place64 {x : Float} (hx : x.isNaN = false) : 0 ≤ x ↔ 0 ≤ place64 x := by
  rw [le_iff_place64 isNaN_zero hx, place64_zero]

theorem pos_iff_place64 {x : Float} (hx : x.isNaN = false) : 0 < x ↔ 0 < place64 x := by
  rw [lt_iff_place64 isNaN_zero hx, place64_zero]

theorem beq_zero_iff_place64 {x : Float} (hx : x.isNaN = false) : x == 0 ↔ place64 x = 0 := by
  rw [beq_iff_place64 hx isNaN_zero, place64_zero]

theorem not_lt_of_isNaN {x y : Float} (hx : x.isNaN = true) : ¬x < y := by
  have hmodel : x.toModel.unpack = .notANumber := isNaN_iff.mp hx
  change ¬decide (x.toModel.unpack.lt y.toModel.unpack = true) = true
  rw [hmodel]
  simp [UnpackedFloat.lt, UnpackedFloat.compare]

theorem le_iff_place32 {x y : Float32} (hx : x.isNaN = false) (hy : y.isNaN = false) :
    x ≤ y ↔ place32 x ≤ place32 y := by
  change decide (x.toModel.unpack.le y.toModel.unpack = true) = true ↔ _
  simp [UnpackedFloat.le, compare32 hx hy, Ordering.isLE_iff_ne_gt, compare_gt_iff_gt]

end NeighborSearch
