import NeighborSearch.Proofs.Decimals
import NeighborSearch.Proofs.Widening

/-!
# Finite numbers

What the formulas do with numbers that are neither NaN nor infinite. Sums and absolute values of
numbers from zero on are such numbers again, nothing is left of a finite number taken from itself,
and zero goes through sums, powers and quotients.
-/

namespace NeighborSearch

open Float.Model (Format UnpackedFloat)
open Float.Model.UnpackedFloat

variable {x y : Float}

/-! ## Numbers that are not negative -/

/-- What a number is made of that is zero or above. -/
theorem nonneg_cases (h : 0 ≤ x) : (∃ s, x.toModel.unpack = .zero s) ∨
    x.toModel.unpack = .infinity .positive ∨
    ∃ m e hm, x.toModel.unpack = .finite .positive m e hm := by
  have hnan := (isNaN_of_le h).2
  have hplace := (nonneg_iff_place64 hnan).mp h
  have hrepresentable := representable64 x
  unfold place64 at hplace
  cases hu : x.toModel.unpack with
  | notANumber =>
    rw [show x.isNaN = x.toModel.unpack.isNaN from rfl, hu] at hnan
    cases hnan
  | zero s => exact Or.inl ⟨s, rfl⟩
  | infinity s =>
    rw [hu] at hplace
    cases s with
    | positive => exact Or.inr (Or.inl rfl)
    | negative =>
      have := infinityPlace_pos .binary64
      simp only [place, Sign.apply] at hplace
      omega
  | finite s m e hm =>
    rw [hu] at hplace hrepresentable
    cases s with
    | positive => exact Or.inr (Or.inr ⟨m, e, hm, rfl⟩)
    | negative =>
      have := hrepresentable.1.place_pos hm
      simp only [place, Sign.apply] at hplace
      omega

theorem isNaN_pack_round (s : Sign) {m : Nat} (hm : 0 < m) (e : Int) :
    (Float.ofModel (.pack (UnpackedFloat.round .binary64 s m e))).isNaN = false := by
  obtain ⟨p, -, hstands⟩ := round_spec .binary64 s hm e
  exact (hstands.place_pack (by decide)).1

/-- Rounding a number that is not negative gives one that is not negative. -/
theorem nonneg_pack_round {m : Nat} (hm : 0 < m) (e : Int) :
    0 ≤ Float.ofModel (.pack (UnpackedFloat.round .binary64 .positive m e)) := by
  obtain ⟨p, hp, hstands⟩ := round_spec .binary64 .positive hm e
  obtain ⟨-, hplace⟩ := hstands.place_pack (by decide)
  rw [nonneg_iff_place64 (isNaN_pack_round .positive hm e)]
  change 0 ≤ place .binary64 (unpack .binary64 (pack .binary64 (round .binary64 .positive m e)))
  rw [hplace]
  exact le_min hp.nonneg (infinityPlace_pos _).le

theorem nonneg_pack_normalize {n : Int} (hn : 0 < n) (e : Int) (s : Sign) :
    0 ≤ Float.ofModel (.pack (UnpackedFloat.normalize .binary64 n e s)) := by
  rw [UnpackedFloat.normalize, compare_gt_iff_gt.mpr hn]
  exact nonneg_pack_round (by omega) e

theorem nonneg_pack_zero : 0 ≤ Float.ofModel (.pack (.zero .positive)) := by decide

theorem nonneg_pack_infinity : 0 ≤ Float.ofModel (.pack (.infinity .positive)) := by decide

theorem nonneg_add (hx : 0 ≤ x) (hy : 0 ≤ y) : 0 ≤ x + y := by
  change 0 ≤ Float.ofModel (.pack (add .binary64 x.toModel.unpack y.toModel.unpack))
  have hpackx := ofModel_pack_unpack64 x
  have hpacky := ofModel_pack_unpack64 y
  -- Next to a zero the sum is the other number as it is, so only two finite numbers are rounded.
  rcases nonneg_cases hx with ⟨s, hu⟩ | hu | ⟨m, e, hm, hu⟩
  · rcases nonneg_cases hy with ⟨s', hv⟩ | hv | ⟨m', e', hm', hv⟩
    · rw [hu, hv]
      cases s <;> cases s' <;> decide
    · rw [hu, hv]
      exact nonneg_pack_infinity
    · rw [hv] at hpacky
      rw [hu, hv]
      exact le_of_le_of_eq hy hpacky.symm
  · rw [hu]
    rcases nonneg_cases hy with ⟨s', hv⟩ | hv | ⟨m', e', hm', hv⟩ <;> rw [hv] <;>
      exact nonneg_pack_infinity
  · rcases nonneg_cases hy with ⟨s', hv⟩ | hv | ⟨m', e', hm', hv⟩
    · rw [hu] at hpackx
      rw [hu, hv]
      exact le_of_le_of_eq hx hpackx.symm
    · rw [hu, hv]
      exact nonneg_pack_infinity
    · rw [hu, hv]
      refine nonneg_pack_normalize ?_ _ _
      simp only [Sign.apply, Nat.shiftLeft_eq]
      positivity

theorem nonneg_abs (hx : x.isNaN = false) : 0 ≤ x.abs := by
  have habs : x.abs = .ofModel (.pack x.toModel.unpack.abs) := rfl
  cases hu : x.toModel.unpack with
  | notANumber =>
    rw [show x.isNaN = x.toModel.unpack.isNaN from rfl, hu] at hx
    cases hx
  | zero s =>
    rw [habs, hu]
    exact nonneg_pack_zero
  | infinity s =>
    rw [habs, hu]
    exact nonneg_pack_infinity
  | finite s m e hm =>
    have hrepresentable := representable64 x
    rw [hu] at hrepresentable
    have hunpack := unpack_abs hu
    refine (nonneg_iff_place64 ?_).mpr ?_
    · change x.abs.toModel.unpack.isNaN = false
      rw [hunpack]
      rfl
    · rw [place64, hunpack]
      exact (hrepresentable.1.place_pos hm).le

/-! ## Finite numbers -/

/-- What a finite number is made of. -/
theorem finite_cases (h : x.isFinite = true) : (∃ s, x.toModel.unpack = .zero s) ∨
    ∃ s m e hm, x.toModel.unpack = .finite s m e hm := by
  change x.toModel.unpack.isFinite = true at h
  cases hu : x.toModel.unpack with
  | zero s => exact Or.inl ⟨s, rfl⟩
  | finite s m e hm => exact Or.inr ⟨s, m, e, hm, rfl⟩
  | infinity s =>
    rw [hu] at h
    cases h
  | notANumber =>
    rw [hu] at h
    cases h

theorem isNaN_of_isFinite (h : x.isFinite = true) : x.isNaN = false := by
  change x.toModel.unpack.isNaN = false
  rcases finite_cases h with ⟨s, hu⟩ | ⟨s, m, e, hm, hu⟩ <;> rw [hu] <;> rfl

/-- Nothing is left of a finite number that is taken from itself. -/
theorem sub_self_of_isFinite (h : x.isFinite = true) : x - x = 0 := by
  change Float.ofModel (.pack (sub .binary64 x.toModel.unpack x.toModel.unpack)) = 0
  rcases finite_cases h with ⟨s, hu⟩ | ⟨s, m, e, hm, hu⟩ <;> rw [hu]
  · cases s <;> decide
  · simp only [sub, sub_self, UnpackedFloat.normalize, compare_eq_iff_eq.mpr rfl]
    decide

theorem gap_self (h : x.isFinite = true) : gap x x = 0 := by
  rw [gap, sub_self_of_isFinite h]
  decide

theorem isNaN_pack_normalize (n : Int) (e : Int) :
    (Float.ofModel (.pack (UnpackedFloat.normalize .binary64 n e .positive))).isNaN = false := by
  rw [UnpackedFloat.normalize]
  rcases lt_trichotomy n 0 with hn | hn | hn
  · rw [compare_lt_iff_lt.mpr hn]
    exact isNaN_pack_round .negative (by omega) e
  · rw [compare_eq_iff_eq.mpr hn]
    change (Float.ofModel (.pack (.zero .positive))).isNaN = false
    decide
  · rw [compare_gt_iff_gt.mpr hn]
    exact isNaN_pack_round .positive (by omega) e

/-- A finite number added to itself may overflow but is a number. -/
theorem isNaN_double (h : x.isFinite = true) : (x + x).isNaN = false := by
  change (Float.ofModel (.pack (add .binary64 x.toModel.unpack x.toModel.unpack))).isNaN = false
  rcases finite_cases h with ⟨s, hu⟩ | ⟨s, m, e, hm, hu⟩ <;> rw [hu]
  · cases s <;> decide
  · exact isNaN_pack_normalize _ _

theorem isFinite_widen {v : Float32} (h : v.isFinite = true) : (widen v).isFinite = true := by
  have hrepresentable := representable32 v
  change v.toModel.unpack.isFinite = true at h
  change (widened v.toModel.unpack).isFinite = true
  cases hu : v.toModel.unpack with
  | zero s => rw [widened_zero]; rfl
  | finite s m e hm =>
    rw [hu] at hrepresentable
    obtain ⟨m', e', hm', -, -, hwidened⟩ := exists_widened_finite s hm hrepresentable
    rw [hwidened]
    rfl
  | infinity s =>
    rw [hu] at h
    cases h
  | notANumber =>
    rw [hu] at h
    cases h

/-! ## Zero -/

/-- Zeros add up to zero. -/
theorem total_eq_zero {xs : List Float} (h : ∀ x ∈ xs, x = 0) (hxs : xs ≠ []) : total xs = 0 := by
  cases xs with
  | nil => exact absurd rfl hxs
  | cons x xs =>
    have hfirst : -0.0 + x = 0 := by
      rw [h x List.mem_cons_self]
      decide
    rw [total, List.foldl_cons, hfirst]
    refine List.foldlRecOn (motive := fun s => s = 0) xs _ rfl ?_
    intro s hs x hx
    rw [hs, h x (List.mem_cons_of_mem _ hx)]
    decide

theorem power_zero {q : Float} (hq : 0 < q) : power 0 q = 0 := by
  have hnan := (isNaN_of_lt hq).2
  have hne : (q == 0) = false := by
    rw [Bool.eq_false_iff, ne_eq, beq_zero_iff_place64 hnan]
    exact ((pos_iff_place64 hnan).mp hq).ne'
  rw [power, hne, if_neg (by decide), if_neg (by decide), if_pos (by simp [hq])]

theorem zero_div_of_nonneg (h : 0 ≤ x) (hne : (x == 0) = false) : 0 / x = 0 := by
  change x.toModel.unpack.beq _ = false at hne
  change Float.ofModel (.pack (div .binary64 (.zero .positive) x.toModel.unpack)) = 0
  rcases nonneg_cases h with ⟨s, hu⟩ | hu | ⟨m, e, hm, hu⟩ <;> rw [hu]
  · rw [hu] at hne
    cases s <;> cases hne
  · decide
  · change Float.ofModel (.pack (.zero .positive)) = 0
    decide

theorem reciprocal_pos {p : Float} (hp : 0 < p) (hinf : p.isInf = false) : 0 < 1 / p := by
  have hnan := (isNaN_of_lt hp).2
  rw [pos_iff_place64 hnan] at hp
  have hle : 0 ≤ p := (nonneg_iff_place64 hnan).mpr hp.le
  rcases nonneg_cases hle with ⟨s, hu⟩ | hu | ⟨m, e, hm, hu⟩
  · rw [place64, hu] at hp
    cases hp
  · change p.toModel.unpack.isInf = false at hinf
    rw [hu] at hinf
    cases hinf
  · obtain ⟨hnumber, q, hpos, hplace⟩ := place_reciprocal hu
    rw [pos_iff_place64 hnumber, hplace]
    exact hpos

/-! ## The square of a cosine -/

/-- The cosine of a finite angle is a number between -1 and 1. -/
theorem cosine_bounds (h : x.isFinite = true) : -1 ≤ cosine x ∧ cosine x ≤ 1 := by
  rw [cosine, if_pos h]
  dsimp only
  split_ifs with hbounds
  · rw [Bool.and_eq_true, decide_eq_true_iff, decide_eq_true_iff] at hbounds
    exact hbounds
  · decide

theorem isFinite_of_place (hnan : x.isNaN = false)
    (hlt : |place64 x| < infinityPlace .binary64) : x.isFinite = true := by
  change x.toModel.unpack.isNaN = false at hnan
  change x.toModel.unpack.isFinite = true
  rw [place64] at hlt
  cases hu : x.toModel.unpack with
  | zero s => rfl
  | finite s m e hm => rfl
  | notANumber =>
    rw [hu] at hnan
    cases hnan
  | infinity s =>
    have hpos := infinityPlace_pos .binary64
    rw [hu, place, abs_lt] at hlt
    cases s <;> simp only [Sign.apply] at hlt <;> omega

theorem abs_place_le_of_bounds (hlow : -1 ≤ x) (hhigh : x ≤ 1) :
    x.isNaN = false ∧ |place64 x| ≤ finitePlace .binary64 (2 ^ 52) (-52) := by
  obtain ⟨hleast, hnan⟩ := isNaN_of_le hlow
  have hmost := (isNaN_of_le hhigh).2
  have hone : place64 1 = finitePlace .binary64 (2 ^ 52) (-52) := by decide
  have hneg : place64 (-1) = -finitePlace .binary64 (2 ^ 52) (-52) := by decide
  rw [le_iff_place64 hleast hnan, hneg] at hlow
  rw [le_iff_place64 hnan hmost, hone] at hhigh
  exact ⟨hnan, abs_le.mpr ⟨hlow, hhigh⟩⟩

/-- The digits of a square reach below its last place. -/
theorem double_exponent_le {m : Nat} {e : Int} (h : Normalised .binary64 m e) (hm : 0 < m) :
    e + e ≤ exponentFor .binary64 (m * 2 ^ e * (m * 2 ^ e)) := by
  have hbits : (Format.mantissaBits .binary64 : Int) = 53 := by decide
  rcases h.leading with hequal | hfull
  · have := minExponent_le_exponentFor .binary64 (m * 2 ^ e * (m * 2 ^ e))
    rw [minExponent_binary64] at this hequal
    omega
  · -- The number has 53 digits, so its square has at least 105, of which rounding keeps 53.
    have hpos : (0 : ℚ) < m * 2 ^ e * (m * 2 ^ e) := by positivity
    have hroot : (2 : ℚ) ^ (52 + e) ≤ m * 2 ^ e := by
      rw [zpow_add₀ (by norm_num)]
      have : ((2 ^ 52 : ℕ) : ℚ) ≤ m := by
        rw [← binade_binary64]
        exact_mod_cast hfull
      push_cast at this
      exact mul_le_mul_of_nonneg_right this (by positivity)
    have hlog : (52 + e) + (52 + e) ≤ Int.log 2 ((m : ℚ) * 2 ^ e * (m * 2 ^ e)) := by
      rw [← Int.zpow_le_iff_le_log (by norm_num) hpos]
      push_cast
      rw [zpow_add₀ (by norm_num)]
      exact mul_le_mul hroot hroot (by positivity) (by positivity)
    rw [exponentFor_eq, hbits]
    omega

theorem normalised_one : Normalised .binary64 (2 ^ 52) (-52) :=
  ⟨by decide, by decide, Or.inr (by decide)⟩

theorem square_le_one {m : Nat} {e : Int} (h : Normalised .binary64 m e)
    (hle : finitePlace .binary64 m e ≤ finitePlace .binary64 (2 ^ 52) (-52)) :
    (m : ℚ) * 2 ^ e * (m * 2 ^ e) ≤ (2 ^ 52 : ℕ) * 2 ^ (-52 : ℤ) := by
  have hvalue := h.value_le normalised_one hle
  have hunit : ((2 ^ 52 : ℕ) : ℚ) * 2 ^ (-52 : ℤ) = 1 := by norm_num
  rw [hunit] at hvalue ⊢
  exact mul_le_one₀ hvalue (by positivity) hvalue

/-- A number between -1 and 1 has a finite square. -/
theorem isFinite_mul_self (hlow : -1 ≤ x) (hhigh : x ≤ 1) : (x * x).isFinite = true := by
  obtain ⟨hnan, hplace⟩ := abs_place_le_of_bounds hlow hhigh
  have hbelow : finitePlace .binary64 (2 ^ 52) (-52) < infinityPlace .binary64 := by decide
  have hfinite := isFinite_of_place hnan (by omega)
  have hrepresentable := representable64 x
  rcases finite_cases hfinite with ⟨s, hu⟩ | ⟨s, m, e, hm, hu⟩
  · change (unpack .binary64 (pack .binary64
      (mul .binary64 x.toModel.unpack x.toModel.unpack))).isFinite = true
    rw [hu]
    cases s <;> decide
  · rw [hu] at hrepresentable
    have hnormal := hrepresentable.1
    have hle : finitePlace .binary64 m e ≤ finitePlace .binary64 (2 ^ 52) (-52) := by
      rw [place64, hu, place, abs_le] at hplace
      cases s <;> simp only [Sign.apply] at hplace <;> omega
    obtain ⟨p, hp, hstands⟩ := mul_spec s s hm hm (double_exponent_le hnormal hm)
    have hple := hp.mono (normalised_one.roundsTo (by decide)) (by positivity)
      (square_le_one hnormal hle)
    have hnonneg := hp.nonneg
    have hmul : (x * x).toModel.unpack = unpack .binary64 (pack .binary64
        (mul .binary64 x.toModel.unpack x.toModel.unpack)) := rfl
    rw [hu] at hmul
    have hpack := hstands.place_pack (by decide)
    rw [← hmul] at hpack
    refine isFinite_of_place hpack.1 ?_
    rw [place64, hpack.2, abs_lt]
    cases (s * s) <;> simp only [Sign.apply] <;> omega

theorem mul_zero_of_isFinite (h : x.isFinite = true) : x * 0 = 0 ∨ x * 0 = -0.0 := by
  have hmul : x * 0 = .ofModel (.pack (mul .binary64 x.toModel.unpack (.zero .positive))) := rfl
  rw [hmul]
  rcases finite_cases h with ⟨s, hu⟩ | ⟨s, m, e, hm, hu⟩ <;> rw [hu]
  · cases s <;> decide
  · cases s
    · exact Or.inr rfl
    · exact Or.inl rfl

end NeighborSearch
