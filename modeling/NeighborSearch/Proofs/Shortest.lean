import NeighborSearch.Decimal.Shortest
import NeighborSearch.Proofs.Decimals

/-!
# Shortest decimals

Whichever decimal is chosen for a number, it reads back: it was accepted on the way, or it is the
number itself with all its digits. In either case it has no more digits than a reader looks at.
-/

namespace NeighborSearch.Decimal

open Float.Model (Format UnpackedFloat)

variable {tie : Tie} {reads : Decimal → Bool} {m : Nat} {e scale : Int} {d : Decimal}

/-! ## Candidates -/

theorem neighbour?_eq_some (h : neighbour? tie reads m e scale = some d) :
    reads d = true ∧ d.digits ≤ (quotient m e scale).1 + 1 := by
  have hdiv := Nat.div_le_self (quotient m e scale).1 (quotient m e scale).2
  have hone : ∀ {c : Decimal}, reads c = true → c.digits ≤ (quotient m e scale).1 + 1 →
      some c = some d → reads d = true ∧ d.digits ≤ (quotient m e scale).1 + 1 := by
    rintro c hreads hdigits ⟨⟩
    exact ⟨hreads, hdigits⟩
  unfold neighbour? at h
  simp only at h
  split at h
  · cases h
  · next hbelow _ => exact hone hbelow (by simp only; omega) h
  · next _ habove => exact hone habove (by simp only; omega) h
  · next hbelow habove =>
    split at h
    · exact hone hbelow (by simp only; omega) h
    · exact hone habove (by simp only; omega) h
    · split_ifs at h
      · exact hone hbelow (by simp only; omega) h
      · exact hone habove (by simp only; omega) h

theorem value_trim (d : Decimal) : d.trim.value = d.value := by
  induction d using trim.induct with
  | case1 d h ih =>
    rw [trim, dif_pos h, ih, value, value]
    have hsplit : (d.digits : ℚ) = 10 * (d.digits / 10 : ℕ) := by
      exact_mod_cast (by omega : d.digits = 10 * (d.digits / 10))
    rw [zpow_add_one₀ (by norm_num), hsplit]
    ring
  | case2 d h => rw [trim, dif_neg h]

theorem digits_trim_le (d : Decimal) : d.trim.digits ≤ d.digits := by
  induction d using trim.induct with
  | case1 d h ih =>
    rw [trim, dif_pos h]
    exact ih.trans (Nat.div_le_self _ _)
  | case2 d h => rw [trim, dif_neg h]

/-- The exact decimal of a binary number has its value. -/
theorem value_exact (m : Nat) (e : Int) : (exact m e).value = m * 2 ^ e := by
  rw [exact, value, Nat.shiftLeft_eq]
  rcases le_or_gt 0 e with he | he
  · rw [show (-e).toNat = 0 by omega]
    have hpower : (2 : ℚ) ^ e = 2 ^ e.toNat := by rw [← zpow_natCast, Int.toNat_of_nonneg he]
    rw [hpower]
    push_cast
    simp
  · obtain ⟨k, rfl⟩ : ∃ k : Nat, e = -k := ⟨(-e).toNat, by omega⟩
    have hten : (10 : ℚ) ^ k = 2 ^ k * 5 ^ k := by rw [← mul_pow]; norm_num
    simp only [neg_neg, Int.toNat_natCast, Int.toNat_neg_natCast, pow_zero, mul_one, zpow_neg,
      zpow_natCast, Nat.pow_eq]
    push_cast
    rw [hten]
    field_simp

/-! ## The number of digits -/

theorem digitCount_le_iff {n k : Nat} (hk : 0 < k) : digitCount n ≤ k ↔ n < 10 ^ k :=
  Nat.length_toDigits_le_iff (by norm_num) hk

/-- A normalised number of binary64 below infinity. -/
structure Finite64 (m : Nat) (e : Int) : Prop where
  pos : 0 < m
  significand_lt : m < 2 ^ 53
  least : -1074 ≤ e
  most : e ≤ 971

theorem finite64_of_unpack {x : Float} {s : UnpackedFloat.Sign} {hm : 0 < m}
    (hx : x.toModel.unpack = .finite s m e hm) : Finite64 m e := by
  have hrepresentable := representable64 x
  rw [hx] at hrepresentable
  obtain ⟨hnormal, hlt⟩ := hrepresentable
  obtain ⟨hnormal_least, hfits, hleading⟩ := hnormal
  rw [binade_binary64] at hfits hleading
  rw [minExponent_binary64] at hnormal_least hleading
  rw [finitePlace, infinityPlace_binary64, minExponent_binary64, binade_binary64] at hlt
  push_cast at hlt
  exact ⟨hm, by omega, hnormal_least, by omega⟩

theorem Finite64.shifted_lt (h : Finite64 m e) : m <<< e.toNat < 2 ^ 1024 := by
  have hmost := h.most
  rw [Nat.shiftLeft_eq]
  calc m * 2 ^ e.toNat < 2 ^ 53 * 2 ^ e.toNat :=
        Nat.mul_lt_mul_of_pos_right h.significand_lt (Nat.two_pow_pos _)
    _ ≤ 2 ^ 53 * 2 ^ 971 := Nat.mul_le_mul_left _ (Nat.pow_le_pow_right (by norm_num) (by omega))
    _ = 2 ^ 1024 := by decide +kernel

theorem Finite64.digits_exact_lt (h : Finite64 m e) : (exact m e).digits < 10 ^ 768 := by
  have hleast := h.least
  change m <<< e.toNat * 5 ^ (-e).toNat < 10 ^ 768
  rcases le_or_gt 0 e with he | he
  · rw [show (-e).toNat = 0 by omega, pow_zero, mul_one]
    exact h.shifted_lt.trans (by decide +kernel)
  · rw [show e.toNat = 0 by omega, Nat.shiftLeft_zero]
    calc m * 5 ^ (-e).toNat < 2 ^ 53 * 5 ^ (-e).toNat :=
          Nat.mul_lt_mul_of_pos_right h.significand_lt (Nat.pow_pos (by norm_num))
      _ ≤ 2 ^ 53 * 5 ^ 1074 :=
          Nat.mul_le_mul_left _ (Nat.pow_le_pow_right (by norm_num) (by omega))
      _ < 10 ^ 768 := by decide +kernel

/-- The leading digit of a number stands no further down than that of the least number. -/
theorem Finite64.le_leadingPower (h : Finite64 m e) : -324 ≤ leadingPower m e := by
  have hleast := h.least
  have hnum : 1 ≤ m <<< e.toNat * Nat.pow 10 (-0 : Int).toNat := by
    rw [Nat.shiftLeft_eq]
    exact Nat.mul_pos (Nat.mul_pos h.pos (Nat.two_pow_pos _)) (by norm_num)
  have hden : Nat.pow 10 (0 : Int).toNat <<< (-e).toNat ≤ 2 ^ 1074 := by
    have hplaces : (-e).toNat ≤ 1074 := by omega
    rw [Nat.shiftLeft_eq]
    change 1 * 2 ^ (-e).toNat ≤ 2 ^ 1074
    rw [one_mul]
    gcongr
    norm_num
  unfold leadingPower quotient
  simp only
  set num := m <<< e.toNat * Nat.pow 10 (-0 : Int).toNat
  set den := Nat.pow 10 (0 : Int).toNat <<< (-e).toNat
  split_ifs
  · omega
  · have hquotient : (den + num - 1) / num - 1 ≤ den := by
      have hmul : den + num - 1 ≤ (den + 1) * num := by
        have := Nat.le_mul_of_pos_right den hnum
        rw [Nat.succ_mul]
        omega
      have := Nat.div_le_of_le_mul ((Nat.mul_comm (den + 1) num) ▸ hmul)
      omega
    have hcount : digitCount ((den + num - 1) / num - 1) ≤ 324 := by
      rw [digitCount_le_iff (by norm_num)]
      exact (hquotient.trans hden).trans_lt (by decide +kernel)
    omega

theorem Finite64.quotient_lt (h : Finite64 m e) (hscale : -340 ≤ scale) :
    (quotient m e scale).1 + 1 < 10 ^ 768 := by
  have hplaces : (-scale).toNat ≤ 340 := by omega
  have hpower : Nat.pow 10 (-scale).toNat ≤ 10 ^ 340 := by
    rw [Nat.pow_eq]
    gcongr
    norm_num
  have hle : (quotient m e scale).1 ≤ 2 ^ 1024 * 10 ^ 340 := Nat.mul_le_mul h.shifted_lt.le hpower
  exact (Nat.succ_le_succ hle).trans_lt (by decide +kernel)

/-! ## The chosen decimal -/

/-- The shortest decimal that reads as a number does so, and a reader looks at all its digits. -/
theorem shortest_spec {x : Float} {hm : 0 < m} (hx : x.toModel.unpack = .finite .positive m e hm)
    (tie : Tie) :
    (shortest tie (fun d => decide (d.toFloat = x)) m e).toFloat = x ∧
      digitCount (shortest tie (fun d => decide (d.toFloat = x)) m e).digits ≤ 768 := by
  have hfinite := finite64_of_unpack hx
  unfold shortest
  simp only
  set found := (List.range mostDigits).findSome? fun n : Nat =>
    neighbour? tie (fun d => decide (d.toFloat = x)) m e (leadingPower m e - n)
  obtain ⟨hreads, hdigits⟩ : (found.getD (exact m e)).toFloat = x ∧
      (found.getD (exact m e)).digits < 10 ^ 768 := by
    cases hfound : found with
    | none => exact ⟨toFloat_eq hx (value_exact m e), hfinite.digits_exact_lt⟩
    | some d =>
      obtain ⟨n, hn, hneighbour⟩ := List.exists_of_findSome?_eq_some hfound
      obtain ⟨hreads, hle⟩ := neighbour?_eq_some hneighbour
      have hlead := hfinite.le_leadingPower
      rw [List.mem_range, mostDigits] at hn
      have hlimit := @Finite64.quotient_lt m e (leadingPower m e - n) hfinite (by omega)
      exact ⟨of_decide_eq_true hreads, hle.trans_lt hlimit⟩
  constructor
  · rw [toFloat_congr (value_trim _), hreads]
  · rw [digitCount_le_iff (by norm_num)]
    exact (digits_trim_le _).trans_lt hdigits

end NeighborSearch.Decimal
