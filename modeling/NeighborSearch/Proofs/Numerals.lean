import NeighborSearch.Decimal.Style
import NeighborSearch.Proofs.Arithmetic
import NeighborSearch.Proofs.Shortest

/-!
# Written numbers

The digits of a number spell its value, and setting the digits of a decimal in any notation keeps
the value. So the numeral of a finite binary64 number is read as that number again.
-/

namespace NeighborSearch

/-! ## Digits -/

section Digits

variable {ds es : List Char} {n : Nat}

theorem foldl_digits (ds : List Char) (n : Nat) :
    ds.foldl (fun n c => 10 * n + digitValue c) n = n * 10 ^ ds.length + digitsValue ds := by
  unfold digitsValue
  induction ds generalizing n with
  | nil => simp
  | cons d ds ih =>
    rw [List.foldl_cons, List.foldl_cons, ih, ih (10 * 0 + digitValue d), List.length_cons]
    ring

/-- Digits that are put in front count by the number of those behind. -/
theorem digitsValue_append (ds es : List Char) :
    digitsValue (ds ++ es) = digitsValue ds * 10 ^ es.length + digitsValue es := by
  rw [digitsValue, List.foldl_append, foldl_digits es]
  rfl

theorem digitsValue_replicate (k : Nat) : digitsValue (List.replicate k '0') = 0 := by
  induction k with
  | zero => rfl
  | succ k ih =>
    rw [List.replicate_succ', digitsValue_append, ih]
    rfl

theorem isDigit_of_mem_digitsOf {c : Char} (h : c ∈ digitsOf n) : c.isDigit = true :=
  Nat.isDigit_of_mem_toDigits (by norm_num) (by norm_num) h

theorem digitsOf_ne_nil (n : Nat) : digitsOf n ≠ [] := Nat.toDigits_ne_nil

theorem digitsValue_digitsOf (n : Nat) : digitsValue (digitsOf n) = n := by
  have hcore : Nat.ofDigitChars 10 (digitsOf n) 0 = n := Nat.ofDigitChars_ten_toDigits
  rw [Nat.ofDigitChars_eq_foldl] at hcore
  rw [← hcore, digitsValue, hcore]
  refine Eq.trans (List.foldl_ext _ _ _ ?_) hcore
  intro m c hc
  rw [digitValue, if_pos (isDigit_of_mem_digitsOf hc)]
  rfl

/-- Only zero starts with a zero. -/
theorem head_digitsOf (hn : 0 < n) : (digitsOf n).head? ≠ some '0' := by
  induction n using Nat.strong_induction_on with
  | _ n ih =>
    rcases lt_or_ge n 10 with hlt | hge
    · rw [digitsOf, Nat.toDigits_of_lt_base hlt, List.head?_cons]
      simpa using hn.ne'
    · have hne := digitsOf_ne_nil (n / 10)
      rw [digitsOf, Nat.toDigits_of_base_le (by norm_num) hge]
      change (digitsOf (n / 10) ++ _).head? ≠ _
      rw [List.head?_append_of_ne_nil _ hne]
      exact ih (n / 10) (by omega) (by omega)

theorem exists_replicate_dropWhile (ds : List Char) :
    ∃ k, ds = List.replicate k '0' ++ ds.dropWhile (· == '0') := by
  refine ⟨(ds.takeWhile (· == '0')).length, ?_⟩
  have hzeros : ds.takeWhile (· == '0')
      = List.replicate (ds.takeWhile (· == '0')).length '0' := by
    refine List.eq_replicate_of_mem ?_
    intro c hc
    simpa using List.mem_takeWhile_imp hc
  rw [← hzeros, List.takeWhile_append_dropWhile]

end Digits

/-! ## The value of a numeral -/

namespace Numeral

variable {n : Numeral}

/-- The exact value of a numeral without its sign. -/
def value (n : Numeral) : ℚ :=
  digitsValue (n.whole ++ n.fraction) * 10 ^ (n.exponent.getD 0 - n.fraction.length)

/-- Trimming a fraction takes away zeros only. -/
theorem exists_trimmedFraction (n : Numeral) :
    ∃ k, n.fraction = n.trimmedFraction ++ List.replicate k '0' := by
  obtain ⟨k, hk⟩ := exists_replicate_dropWhile n.fraction.reverse
  have hreverse := congrArg List.reverse hk
  rw [List.reverse_reverse, List.reverse_append, List.reverse_replicate] at hreverse
  exact ⟨k, hreverse⟩

/-- If all significant digits are read, then so is the exact value. -/
theorem value_curtailed {limit : Nat} (h : n.significant.length ≤ limit) :
    (n.curtailed limit).value = n.value := by
  obtain ⟨k, hfraction⟩ := n.exists_trimmedFraction
  obtain ⟨j, hsignificant⟩ := exists_replicate_dropWhile (n.whole ++ n.trimmedFraction)
  change _ = _ ++ n.significant at hsignificant
  have hdigits : digitsValue (n.whole ++ n.fraction) = digitsValue n.significant * 10 ^ k := by
    rw [hfraction, ← List.append_assoc, digitsValue_append, digitsValue_replicate,
      List.length_replicate, hsignificant, digitsValue_append, digitsValue_replicate]
    ring
  have hlength : (n.fraction.length : Int) = n.trimmedFraction.length + k := by
    rw [hfraction, List.length_append, List.length_replicate]
    push_cast
    rfl
  simp only [curtailed, if_pos h]
  rw [Decimal.value, value, hdigits, hlength]
  push_cast
  rw [mul_assoc, ← zpow_natCast, ← zpow_add₀ (by norm_num)]
  congr 2
  ring

/-- What is read depends on the value and the sign only, if there are not too many digits. -/
theorem toFloat_eq {d : Decimal} (h : n.significant.length ≤ 768) (hvalue : n.value = d.value) :
    n.toFloat = if n.negative then -d.toFloat else d.toFloat := by
  rw [toFloat, Decimal.toFloat_congr ((value_curtailed h).trans hvalue)]

theorem length_dropWhile_append_le {α : Type} (p : α → Bool) (xs ys : List α) :
    (xs.dropWhile p).length ≤ ((xs ++ ys).dropWhile p).length := by
  induction xs with
  | nil => simp
  | cons x xs ih =>
    rw [List.cons_append, List.dropWhile_cons, List.dropWhile_cons]
    split_ifs
    · exact ih
    · simp

/-- Zeros in front are not significant. -/
theorem length_significant_le {k : Nat} {ds : List Char}
    (h : n.whole ++ n.fraction = List.replicate k '0' ++ ds) :
    n.significant.length ≤ ds.length := by
  obtain ⟨j, hfraction⟩ := n.exists_trimmedFraction
  have hprefix := length_dropWhile_append_le (· == '0') (n.whole ++ n.trimmedFraction)
    (List.replicate j '0')
  rw [List.append_assoc, ← hfraction, h] at hprefix
  have hzeros : ∀ c ∈ List.replicate k '0', (c == '0') = true := by
    intro c hc
    simp [List.eq_of_mem_replicate hc]
  rw [List.dropWhile_append_of_pos hzeros] at hprefix
  exact hprefix.trans (List.dropWhile_sublist _).length_le

/-- An integer is read from the numeral that it is written as. -/
theorem toInt?_ofInt (k : Int) : (ofInt k).toInt? = some k := by
  unfold toInt? ofInt
  simp only [digitsValue_digitsOf, List.isEmpty_nil, Option.isNone_none, Bool.and_self, if_true,
    decide_eq_true_eq]
  split_ifs with hnegative hzero
  · omega
  · rw [Int.ofNat_natAbs_of_nonpos hnegative.le, neg_neg]
  · rw [Int.natAbs_of_nonneg (not_lt.mp hnegative)]

/-- A numeral that a reader takes as a whole: its whole part has a digit, and starts with a zero
only if it is zero. -/
structure Proper (n : Numeral) : Prop where
  whole : ∀ c ∈ n.whole, c.isDigit = true
  fraction : ∀ c ∈ n.fraction, c.isDigit = true
  nonempty : n.whole ≠ []
  leading : n.whole.head? = some '0' → n.whole = ['0']

theorem proper_ofInt (k : Int) : (ofInt k).Proper := by
  refine ⟨fun c => isDigit_of_mem_digitsOf, fun c hc => absurd hc (by simp [ofInt]),
    digitsOf_ne_nil _, ?_⟩
  intro hzero
  change (digitsOf k.natAbs).head? = _ at hzero
  change digitsOf k.natAbs = _
  rcases Nat.eq_zero_or_pos k.natAbs with hk | hk
  · rw [hk]
    rfl
  · exact absurd hzero (head_digitsOf hk)

variable {ds es fs : List Char} {negative : Bool} {exponent : Option Int}

theorem proper_append (hds : ∀ c ∈ ds, c.isDigit = true) (hne : ds ≠ [])
    (hes : ∀ c ∈ es, c.isDigit = true) (hfs : ∀ c ∈ fs, c.isDigit = true)
    (hzero : ds.head? = some '0' → ds ++ es = ['0']) :
    Proper ⟨negative, ds ++ es, fs, exponent⟩ := by
  refine ⟨List.forall_mem_append.mpr ⟨hds, hes⟩, hfs, by simp [hne], fun hhead => hzero ?_⟩
  rwa [List.head?_append_of_ne_nil _ hne] at hhead

/-- Digits may be split anywhere but in front. -/
theorem proper_split (hds : ∀ c ∈ ds, c.isDigit = true) (hne : ds ≠ []) {k : Nat} (hk : 0 < k)
    (hzero : ds.head? = some '0' → ds = ['0']) :
    Proper ⟨negative, ds.take k, ds.drop k, exponent⟩ := by
  refine ⟨fun c hc => hds c (List.mem_of_mem_take hc), fun c hc => hds c (List.mem_of_mem_drop hc),
    by simp [hne, hk.ne'], ?_⟩
  intro hhead
  change (ds.take k).head? = _ at hhead
  rw [List.head?_take, if_neg hk.ne'] at hhead
  change ds.take k = _
  rw [hzero hhead]
  exact List.take_of_length_le hk

end Numeral

/-! ## Layouts -/

namespace Decimal

open Float.Model (UnpackedFloat)
open Float.Model.UnpackedFloat (Sign pack unpack)

variable {style : Style} {d : Decimal} {x : Float}

/-- Any notation sets the digits of a decimal among zeros. Zeros follow them only if the number is
whole, and then no more than its positional notation has places. -/
theorem Style.layout_digits {places : Nat}
    (hplaces : ∀ point, style.positional point = true → point ≤ places) (negative : Bool)
    (d : Decimal) :
    ∃ front back, (style.layout negative d).whole ++ (style.layout negative d).fraction
        = List.replicate front '0' ++ (digitsOf d.digits ++ List.replicate back '0') ∧
      (style.layout negative d).exponent.getD 0 - (style.layout negative d).fraction.length
        = d.exponent - back ∧
      (back = 0 ∨ digitCount d.digits + back ≤ places + 1) := by
  have hlength : 0 < digitCount d.digits := List.length_pos_iff.mpr (digitsOf_ne_nil _)
  unfold digitCount at *
  unfold Style.layout
  set ds := digitsOf d.digits
  simp only
  split_ifs with hpositional hbelow hwhole hfraction
  · refine ⟨1 + (-(ds.length + d.exponent)).toNat, 0, ?_, ?_, .inl rfl⟩
    · rw [List.replicate_add]
      simp
    · simp only [List.length_append, List.length_replicate, Option.getD_none]
      omega
  · have hbound := hplaces _ hpositional
    refine ⟨0, d.exponent.toNat + 1, ?_, ?_, .inr (by omega)⟩
    · rw [show (ds.length + d.exponent - ds.length : Int) = d.exponent by omega,
        List.replicate_succ']
      simp
    · simp only [List.length_singleton, Option.getD_none]
      omega
  · have hbound := hplaces _ hpositional
    refine ⟨0, d.exponent.toNat, ?_, ?_, .inr (by omega)⟩
    · rw [show (ds.length + d.exponent - ds.length : Int) = d.exponent by omega]
      simp
    · simp only [List.length_nil, Option.getD_none]
      omega
  · refine ⟨0, 0, by simp, ?_, .inl rfl⟩
    simp only [List.length_drop, Option.getD_none]
    omega
  · refine ⟨0, 0, by simp [-List.drop_one], ?_, .inl rfl⟩
    simp only [List.length_drop, Option.getD_some]
    omega

/-- A decimal is read from any notation as it is read itself. -/
theorem Style.toFloat_layout {places : Nat}
    (hplaces : ∀ point, style.positional point = true → point ≤ places) (hfew : places < 768)
    (negative : Bool) (hd : digitCount d.digits ≤ 768) :
    (style.layout negative d).toFloat = if negative then -d.toFloat else d.toFloat := by
  obtain ⟨front, back, hdigits, hexponent, hback⟩ := style.layout_digits hplaces negative d
  have hsign : (style.layout negative d).negative = negative := by
    unfold Style.layout
    simp only
    split_ifs <;> rfl
  have hsignificant : (style.layout negative d).significant.length ≤ 768 := by
    have hle := Numeral.length_significant_le hdigits
    rw [List.length_append, List.length_replicate] at hle
    unfold digitCount at hd hback
    omega
  have hvalue : (style.layout negative d).value = d.value := by
    rw [Numeral.value, hdigits, hexponent, digitsValue_append, digitsValue_replicate,
      digitsValue_append, digitsValue_replicate, digitsValue_digitsOf, List.length_replicate,
      Decimal.value, zpow_sub₀ (by norm_num), zpow_natCast]
    push_cast
    field_simp
    ring
  rw [Numeral.toFloat_eq hsignificant hvalue, hsign]

/-- A decimal is set properly, unless it is zero with an exponent. -/
theorem Style.proper_layout (style : Style) (negative : Bool)
    (hd : 0 < d.digits ∨ d.exponent = 0) : (style.layout negative d).Proper := by
  have hdigits : ∀ c ∈ digitsOf d.digits, c.isDigit = true := fun c => isDigit_of_mem_digitsOf
  have hzeros : ∀ k, ∀ c ∈ List.replicate k '0', c.isDigit = true := by
    intro k c hc
    rw [List.eq_of_mem_replicate hc]
    rfl
  have hleading : (digitsOf d.digits).head? = some '0' →
      digitsOf d.digits = ['0'] ∧ d.exponent = 0 := by
    intro hzero
    have hnone : d.digits = 0 := Nat.eq_zero_of_not_pos fun hpos => head_digitsOf hpos hzero
    exact ⟨by rw [hnone]; rfl, hd.resolve_left (by omega)⟩
  have hnonempty := digitsOf_ne_nil d.digits
  unfold Style.layout
  simp only
  split_ifs with hpositional hbelow hwhole hfraction
  · exact ⟨by simp, List.forall_mem_append.mpr ⟨hzeros _, hdigits⟩, by simp, fun _ => rfl⟩
  · refine Numeral.proper_append hdigits hnonempty (hzeros _) (by simp) fun hzero => ?_
    obtain ⟨hds, hexponent⟩ := hleading hzero
    simp [hds, hexponent]
  · refine Numeral.proper_append hdigits hnonempty (hzeros _) (by simp) fun hzero => ?_
    obtain ⟨hds, hexponent⟩ := hleading hzero
    simp [hds, hexponent]
  · exact Numeral.proper_split hdigits hnonempty (by omega) fun hzero => (hleading hzero).1
  · exact Numeral.proper_split hdigits hnonempty (by omega) fun hzero => (hleading hzero).1

theorem positional_interchange_le (point : Int) (h : interchange.positional point = true) :
    point ≤ (16 : Nat) := by
  change (decide (-5 < point) && decide (point ≤ 16)) = true at h
  rw [Bool.and_eq_true, decide_eq_true_iff, decide_eq_true_iff] at h
  exact h.2

theorem neg_abs {s : Sign} {m : Nat} {e : Int} {hm : 0 < m}
    (hx : x.toModel.unpack = .finite s m e hm) :
    (if s == .negative then -x.abs else x.abs) = x := by
  have habs := unpack_abs hx
  cases s with
  | positive =>
    change x.abs = x
    rw [← ofModel_pack_unpack64 x.abs, habs, ← hx, ofModel_pack_unpack64]
  | negative =>
    change Float.ofModel (.pack x.abs.toModel.unpack.neg) = x
    rw [habs]
    change Float.ofModel (.pack (.finite .negative m e hm)) = x
    rw [← hx, ofModel_pack_unpack64]

/-- The numeral of a stored number is read as that number. -/
theorem toFloat_interchange {n : Numeral} (h : interchange.float? x = some n) : n.toFloat = x := by
  have hlayout := fun negative (d : Decimal) (hd : digitCount d.digits ≤ 768) =>
    Style.toFloat_layout positional_interchange_le (by norm_num) negative hd
  unfold Style.float? at h
  split at h
  · next sign hx =>
    obtain rfl := Option.some.inj h
    rw [hlayout _ _ (by decide), toFloat_of_digits_eq_zero rfl, ← ofModel_pack_unpack64 x, hx]
    cases sign <;> rfl
  · next sign m e hm hx =>
    obtain rfl := Option.some.inj h
    obtain ⟨hreads, hcount⟩ := shortest_spec (unpack_abs hx) interchange.tie
    rw [hlayout _ _ hcount, hreads, neg_abs hx]
  · exact absurd h (by simp)

/-- Numbers are stored as proper numerals. -/
theorem proper_interchange {n : Numeral} (h : interchange.float? x = some n) : n.Proper := by
  unfold Style.float? at h
  split at h
  · obtain rfl := Option.some.inj h
    exact Style.proper_layout _ _ (.inr rfl)
  · next sign m e hm hx =>
    obtain rfl := Option.some.inj h
    obtain ⟨hreads, -⟩ := shortest_spec (unpack_abs hx) interchange.tie
    refine Style.proper_layout _ _ (.inl (Nat.pos_of_ne_zero fun hzero => ?_))
    have hunpack := unpack_abs hx
    rw [← hreads, toFloat_of_digits_eq_zero hzero] at hunpack
    cases hunpack
  · exact absurd h (by simp)

/-- Every finite number has a numeral, and no other number has one. -/
theorem isSome_interchange (x : Float) : (interchange.float? x).isSome = x.isFinite := by
  change _ = x.toModel.unpack.isFinite
  unfold Style.float?
  cases x.toModel.unpack <;> rfl

end Decimal

end NeighborSearch
