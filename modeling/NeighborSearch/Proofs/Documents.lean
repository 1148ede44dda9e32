import NeighborSearch.Json.Reader
import NeighborSearch.Json.Writer
import NeighborSearch.Proofs.Numerals

/-!
# Written documents

The writer and the reader of documents are inverse: a document whose strings are text and whose
numbers are in the grammar is read from the text that it is written as. Numbers alone have no end of
their own, so what follows a value must not continue a number.
-/

namespace NeighborSearch

/-! ## Numbers -/

section Numbers

variable {cs ds : List Char} {n : Numeral}

/-- Nothing in front that continues a number. -/
def EndsNumber (cs : List Char) : Prop :=
  ∀ c ∈ cs.head?, c.isDigit = false ∧ c ≠ '.' ∧ c ≠ 'e' ∧ c ≠ 'E'

theorem endsNumber_nil : EndsNumber [] := by simp [EndsNumber]

theorem endsNumber_cons {c : Char} (h : c.isDigit = false ∧ c ≠ '.' ∧ c ≠ 'e' ∧ c ≠ 'E') :
    EndsNumber (c :: cs) := by
  intro c' hc'
  obtain rfl : c = c' := by simpa using hc'
  exact h

theorem ne_of_isDigit {c c' : Char} (hc : c.isDigit = true) (hc' : c'.isDigit = false) :
    c ≠ c' := by
  rintro rfl
  rw [hc] at hc'
  cases hc'

namespace Json

theorem readDigits_append (hds : ∀ c ∈ ds, c.isDigit = true) (hne : ds ≠ [])
    (hcs : ∀ c ∈ cs.head?, c.isDigit = false) : readDigits (ds ++ cs) = some (ds, cs) := by
  have hstop : cs.takeWhile Char.isDigit = [] ∧ cs.dropWhile Char.isDigit = cs := by
    cases cs with
    | nil => exact ⟨rfl, rfl⟩
    | cons c cs => simp [hcs c rfl]
  unfold readDigits
  simp only
  rw [List.takeWhile_append_of_pos hds, List.dropWhile_append_of_pos hds, hstop.1, hstop.2,
    List.append_nil, if_neg (by simpa using hne)]

/-- The whole part of a proper numeral is read back. -/
theorem readWhole_append (hn : n.Proper) (hcs : ∀ c ∈ cs.head?, c.isDigit = false) :
    readWhole (n.whole ++ cs) = some (n.whole, cs) := by
  unfold readWhole
  split
  · next rest heq =>
    have hzero : n.whole.head? = some '0' := by
      rw [← List.head?_append_of_ne_nil _ hn.nonempty, heq, List.head?_cons]
    rw [hn.leading hzero] at heq ⊢
    rw [List.cons_append, List.nil_append, List.cons.injEq] at heq
    rw [heq.2]
  · exact readDigits_append hn.whole hn.nonempty hcs

/-- The digits of an exponent after its sign. -/
theorem readExponentDigits_append (negative : Bool) (k : Nat) (hcs : EndsNumber cs) :
    readExponentDigits negative (digitsOf k ++ cs)
      = some (some (if negative then -(k : Int) else k), cs) := by
  unfold readExponentDigits
  rw [readDigits_append (fun c => isDigit_of_mem_digitsOf) (digitsOf_ne_nil k)
    fun c hc => (hcs c hc).1]
  simp only [Option.map_some, digitsValue_digitsOf]

/-- The written form of an exponent. -/
def exponentText (exponent : Option Int) : List Char :=
  match exponent with
  | none => []
  | some e => 'e' :: ((if e < 0 then ['-'] else ['+']) ++ digitsOf e.natAbs)

theorem readExponent_append (exponent : Option Int) (hcs : EndsNumber cs) :
    readExponent (exponentText exponent ++ cs) = some (exponent, cs) := by
  cases exponent with
  | none =>
    cases cs with
    | nil => rfl
    | cons c cs =>
      obtain ⟨-, -, he, hE⟩ := hcs c rfl
      unfold readExponent exponentText
      split <;> simp_all
  | some e =>
    rcases Int.lt_or_le e 0 with he | he
    · simp only [exponentText, if_pos he, List.cons_append, List.nil_append, readExponent]
      rw [readExponentDigits_append true e.natAbs hcs]
      simp only [if_true, Int.ofNat_natAbs_of_nonpos he.le, neg_neg]
    · simp only [exponentText, if_neg (not_lt.mpr he), List.cons_append, List.nil_append,
        readExponent]
      rw [readExponentDigits_append false e.natAbs hcs]
      simp only [Bool.false_eq_true, if_false, Int.natAbs_of_nonneg he]

theorem head_exponentText (exponent : Option Int) (hcs : EndsNumber cs) :
    ∀ c ∈ (exponentText exponent ++ cs).head?, c.isDigit = false ∧ c ≠ '.' := by
  intro c hc
  cases exponent with
  | none => exact ⟨(hcs c hc).1, (hcs c hc).2.1⟩
  | some e =>
    obtain rfl : 'e' = c := by simpa [exponentText] using hc
    decide

/-- The written form of a fraction. -/
def fractionText (ds : List Char) : List Char :=
  if ds.isEmpty then [] else '.' :: ds

theorem readFraction_append (hds : ∀ c ∈ ds, c.isDigit = true)
    (hcs : ∀ c ∈ cs.head?, c.isDigit = false ∧ c ≠ '.') :
    readFraction (fractionText ds ++ cs) = some (ds, cs) := by
  rcases ds with - | ⟨d, ds⟩
  · change readFraction cs = _
    unfold readFraction
    split
    · exact absurd rfl (hcs '.' rfl).2
    · rfl
  · exact readDigits_append hds (List.cons_ne_nil d ds) fun c hc => (hcs c hc).1

theorem head_fractionText (hcs : ∀ c ∈ cs.head?, c.isDigit = false) :
    ∀ c ∈ (fractionText ds ++ cs).head?, c.isDigit = false := by
  rcases ds with - | ⟨d, ds⟩
  · exact hcs
  · intro c hc
    obtain rfl : '.' = c := by simpa [fractionText] using hc
    rfl

/-- What follows the sign of a proper numeral is read back. -/
theorem readUnsigned_append (negative : Bool) (hn : n.Proper) (hcs : EndsNumber cs) :
    readUnsigned negative
        (n.whole ++ (fractionText n.fraction ++ (exponentText n.exponent ++ cs)))
      = some (⟨negative, n.whole, n.fraction, n.exponent⟩, cs) := by
  have hexponent := head_exponentText n.exponent hcs
  unfold readUnsigned
  rw [readWhole_append hn (head_fractionText fun c hc => (hexponent c hc).1)]
  simp only [Option.bind_eq_bind, Option.bind_some, readFraction_append hn.fraction hexponent,
    readExponent_append n.exponent hcs, Option.pure_def]

theorem text_append (n : Numeral) (cs : List Char) :
    n.text ['+'] ++ cs = (if n.negative then ['-'] else [])
      ++ (n.whole ++ (fractionText n.fraction ++ (exponentText n.exponent ++ cs))) := by
  simp only [Numeral.text, List.append_assoc]
  rfl

/-- A number in the grammar is read up to what ends it. -/
theorem readNumeral_append (hn : n.Proper) (hcs : EndsNumber cs) :
    readNumeral (n.text ['+'] ++ cs) = some (n, cs) := by
  have hunsigned := fun negative => readUnsigned_append negative hn hcs
  rw [text_append]
  obtain ⟨negative, whole, fraction, exponent⟩ := n
  cases negative with
  | true => exact hunsigned true
  | false =>
    obtain ⟨d, ds, rfl⟩ := List.exists_cons_of_ne_nil hn.nonempty
    have hd : d.isDigit = true := hn.whole d List.mem_cons_self
    change readNumeral (d :: _) = _
    unfold readNumeral
    split
    · next heq =>
      rw [(List.cons.inj heq).1] at hd
      exact absurd hd (by decide)
    · exact hunsigned false

end Json

end Numbers

namespace Json

/-! ## Strings -/

section Strings

variable {c : Char} {cs : List Char}

theorem hexValue?_hexDigit (n : Nat) : hexValue? (hexDigit n) = some (n % 16) := by
  have hall : ∀ d < 16, hexValue? (Nat.digitChar d) = some d := by decide
  exact hall (n % 16) (Nat.mod_lt n (by norm_num))

theorem readPieces_cons (hquote : c ≠ '"') (hescape : c ≠ '\\') (hc : 32 ≤ c.toNat) :
    readPieces (c :: cs) = (readPieces cs).map fun (pieces, left) => (.char c :: pieces, left) := by
  rw [readPieces.eq_5 _ _ hquote (by simp [hescape]) (by simp [hescape]), if_neg (by omega)]

theorem readPieces_short (hc : c ≠ 'u') {e : Char} (he : escaped? c = some e) :
    readPieces ('\\' :: c :: cs)
      = (readPieces cs).map fun (pieces, left) => (.char e :: pieces, left) := by
  rw [readPieces.eq_4 _ _ (by simp [hc]), he]
  cases readPieces cs <;> rfl

theorem readPieces_unit {h₁ h₂ : Char} {u₁ u₂ : Nat} (hu₁ : hexValue? h₁ = some u₁)
    (hu₂ : hexValue? h₂ = some u₂) (hu : u₁ * 16 + u₂ < 32) :
    readPieces ('\\' :: 'u' :: '0' :: '0' :: h₁ :: h₂ :: cs)
      = (readPieces cs).map fun (pieces, left) =>
          (.char (Char.ofNat (u₁ * 16 + u₂)) :: pieces, left) := by
  have hzero : hexValue? '0' = some 0 := rfl
  rw [readPieces.eq_3, hzero, hu₁, hu₂]
  cases readPieces cs with
  | none => rfl
  | some read =>
    simp only [Option.bind_eq_bind, Option.bind_some, unitPiece, Nat.zero_mul, Nat.zero_add]
    rw [if_neg (by omega)]
    rfl

/-- A character is read from its escape. -/
theorem readPieces_escape (c : Char) (cs : List Char) :
    readPieces (escape c ++ cs)
      = (readPieces cs).map fun (pieces, left) => (.char c :: pieces, left) := by
  unfold escape
  split_ifs with hquote hescape hcontrol
  · subst hquote
    exact readPieces_short (by decide) rfl
  · subst hescape
    exact readPieces_short (by decide) rfl
  · have hunit : c.toNat / 16 % 16 * 16 + c.toNat % 16 = c.toNat := by omega
    have hread := @readPieces_unit cs _ _ _ _ (hexValue?_hexDigit (c.toNat / 16))
      (hexValue?_hexDigit c.toNat) (by omega)
    rw [hunit, Char.ofNat_toNat] at hread
    exact hread
  · exact readPieces_cons hquote hescape (by omega)

/-- Escaped characters are read back one by one, up to the closing quote. -/
theorem readPieces_flatMap_escape (text cs : List Char) :
    readPieces (text.flatMap escape ++ '"' :: cs) = some (text.map .char, cs) := by
  induction text with
  | nil => rfl
  | cons c text ih =>
    rw [List.flatMap_cons, List.append_assoc, readPieces_escape, ih]
    rfl

theorem spell?_map_char (text : List Char) : spell? (text.map .char) = some text := by
  induction text with
  | nil => rfl
  | cons c text ih =>
    rw [List.map_cons, spell?, ih]
    rfl

/-- Text is read from its quoted form. -/
theorem readString_quote (text : String) (cs : List Char) :
    readString (text.toList.flatMap escape ++ '"' :: cs) = some (some text, cs) := by
  unfold readString
  rw [readPieces_flatMap_escape]
  simp only [Option.map_some, spell?_map_char, String.ofList_toList]

theorem quote_append (text : String) (cs : List Char) :
    quote (some text) ++ cs = '"' :: (text.toList.flatMap escape ++ '"' :: cs) := by
  simp [quote]

end Strings

/-! ## Values -/

/-- A document that its text tells completely: its strings are text and its numbers are in the
grammar. -/
inductive Proper : Json → Prop where
  | null : Proper .null
  | boolean (value : Bool) : Proper (.boolean value)
  | number {n : Numeral} (proper : n.Proper) : Proper (.number n)
  | string (text : String) : Proper (.string (some text))
  | array {items : List Json} (proper : ∀ item ∈ items, Proper item) : Proper (.array items)
  | object {members : List (Option String × Json)} (names : ∀ m ∈ members, m.1.isSome)
      (proper : ∀ m ∈ members, Proper m.2) : Proper (.object members)

/-- With enough fuel for its text a document is read back, up to what ends it. -/
def ReadsBack (document : Json) : Prop :=
  ∀ fuel cs, 2 * document.write.length ≤ fuel → EndsNumber cs →
    readValue fuel (document.write ++ cs) = some (document, cs)

section Values

variable {document : Json} {cs : List Char} {fuel : Nat}

/-- No text is empty, so there is fuel for the first step. -/
theorem readsBack_of_succ (hne : document.write ≠ [])
    (h : ∀ fuel cs, 2 * document.write.length ≤ fuel + 1 → EndsNumber cs →
      readValue (fuel + 1) (document.write ++ cs) = some (document, cs)) : document.ReadsBack := by
  intro fuel cs hfuel hcs
  have hlength := List.length_pos_iff.mpr hne
  obtain ⟨fuel, rfl⟩ : ∃ f, fuel = f + 1 := ⟨fuel - 1, by omega⟩
  exact h fuel cs hfuel hcs

theorem head_text {n : Numeral} (hn : n.Proper) :
    ∃ c rest, n.text ['+'] = c :: rest ∧ (c = '-' ∨ c.isDigit = true) := by
  obtain ⟨negative, whole, fraction, exponent⟩ := n
  cases negative with
  | true => exact ⟨'-', _, rfl, .inl rfl⟩
  | false =>
    obtain ⟨d, ds, rfl⟩ := List.exists_cons_of_ne_nil hn.nonempty
    exact ⟨d, _, rfl, .inr (hn.whole d List.mem_cons_self)⟩

/-- The first character of a document opens it. -/
theorem Proper.exists_write_eq (h : document.Proper) :
    ∃ c rest, document.write = c :: rest ∧ isBlank c = false ∧ c ≠ ']' := by
  cases h with
  | null => exact ⟨'n', _, rfl, by decide⟩
  | boolean value => cases value <;> exact ⟨_, _, rfl, by decide⟩
  | string text => exact ⟨'"', _, rfl, by decide⟩
  | array => exact ⟨'[', _, rfl, by decide⟩
  | object => exact ⟨'\x7b', _, rfl, by decide⟩
  | number hn =>
    obtain ⟨c, rest, htext, rfl | hc⟩ := head_text hn
    · exact ⟨'-', rest, htext, by decide⟩
    · refine ⟨c, rest, htext, ?_, ne_of_isDigit hc rfl⟩
      simp [isBlank, ne_of_isDigit hc]

theorem skipBlanks_cons {c : Char} (hc : isBlank c = false) : skipBlanks (c :: cs) = c :: cs := by
  simp [skipBlanks, hc]

theorem readValue_of_readNumeral {n : Numeral} {c : Char} {rest left : List Char}
    (hc : c = '-' ∨ c.isDigit = true) (h : readNumeral (c :: rest) = some (n, left)) :
    readValue (fuel + 1) (c :: rest) = some (.number n, left) := by
  have hblank : isBlank c = false := by
    rcases hc with rfl | hc
    · rfl
    · simp [isBlank, ne_of_isDigit hc]
  have hopens : ∀ c', c'.isDigit = false → c' ≠ '-' → c ≠ c' := by
    rintro c' hdigit hminus
    rcases hc with rfl | hc
    · exact hminus.symm
    · exact ne_of_isDigit hc hdigit
  rw [readValue, skipBlanks_cons hblank]
  split
  · next heq => exact absurd (List.cons.inj heq).1 (hopens _ rfl (by decide))
  · next heq => exact absurd (List.cons.inj heq).1 (hopens _ rfl (by decide))
  · next heq => exact absurd (List.cons.inj heq).1 (hopens _ rfl (by decide))
  · next heq => exact absurd (List.cons.inj heq).1 (hopens _ rfl (by decide))
  · next heq => exact absurd (List.cons.inj heq).1 (hopens _ rfl (by decide))
  · next heq => exact absurd (List.cons.inj heq).1 (hopens _ rfl (by decide))
  · rw [h]
    rfl

theorem readsBack_number {n : Numeral} (hn : n.Proper) : ReadsBack (.number n) := by
  obtain ⟨c, rest, htext, hc⟩ := head_text hn
  have hwrite : write (.number n) = c :: rest := htext
  refine readsBack_of_succ (by simp [hwrite]) fun fuel cs _ hcs => ?_
  have hread := readNumeral_append hn hcs
  rw [htext] at hread
  rw [hwrite]
  exact readValue_of_readNumeral hc hread

theorem readItems_last {item : Json} (hitem : item.ReadsBack)
    (hfuel : 2 * item.write.length ≤ fuel) :
    readItems (fuel + 1) (item.write ++ ']' :: cs) = some ([item], cs) := by
  rw [readItems, hitem fuel _ hfuel (endsNumber_cons (by decide))]
  rfl

theorem readItems_more {item : Json} {items : List Json} {rest : List Char}
    (hitem : item.ReadsBack) (hfuel : 2 * item.write.length ≤ fuel)
    (hrest : readItems fuel rest = some (items, cs)) :
    readItems (fuel + 1) (item.write ++ ',' :: rest) = some (item :: items, cs) := by
  rw [readItems, hitem fuel _ hfuel (endsNumber_cons (by decide))]
  simp only [Option.bind_eq_bind, Option.bind_some,
    skipBlanks_cons (show isBlank ',' = false by rfl), hrest]
  rfl

/-- All items of an array are read back, if each of them is. -/
theorem readItems_append {items : List Json} (hne : items ≠ [])
    (hitems : ∀ item ∈ items, item.ReadsBack) (hfuel : 2 * (writeItems items).length < fuel) :
    readItems fuel (writeItems items ++ cs) = some (items, cs) := by
  induction items generalizing fuel with
  | nil => exact absurd rfl hne
  | cons item rest ih =>
    obtain ⟨fuel, rfl⟩ := Nat.exists_eq_succ_of_ne_zero (Nat.ne_zero_of_lt hfuel)
    have hitem := hitems item List.mem_cons_self
    cases rest with
    | nil =>
      rw [writeItems, List.length_append, List.length_singleton] at hfuel
      rw [writeItems, List.append_assoc]
      exact readItems_last hitem (by omega)
    | cons next rest =>
      rw [writeItems.eq_3 _ _ (List.cons_ne_nil next rest), List.length_append,
        List.length_cons] at hfuel
      rw [writeItems.eq_3 _ _ (List.cons_ne_nil next rest), List.append_assoc]
      exact readItems_more hitem (by omega) (ih (List.cons_ne_nil next rest)
        (fun i hi => hitems i (List.mem_cons_of_mem item hi)) (by omega))

theorem readMembers_last {text : String} {value : Json} (hvalue : value.ReadsBack)
    (hfuel : 2 * value.write.length ≤ fuel) :
    readMembers (fuel + 1) (quote (some text) ++ ':' :: (value.write ++ '\x7d' :: cs))
      = some ([(some text, value)], cs) := by
  have hread := hvalue fuel ('\x7d' :: cs) hfuel (endsNumber_cons (by decide))
  rw [readMembers, quote_append, skipBlanks_cons (by decide)]
  simp only [readString_quote, Option.bind_eq_bind, Option.bind_some,
    skipBlanks_cons (show isBlank ':' = false by rfl), hread]
  rfl

theorem readMembers_more {text : String} {value : Json} {members : List (Option String × Json)}
    {rest : List Char} (hvalue : value.ReadsBack) (hfuel : 2 * value.write.length ≤ fuel)
    (hrest : readMembers fuel rest = some (members, cs)) :
    readMembers (fuel + 1) (quote (some text) ++ ':' :: (value.write ++ ',' :: rest))
      = some ((some text, value) :: members, cs) := by
  have hread := hvalue fuel (',' :: rest) hfuel (endsNumber_cons (by decide))
  rw [readMembers, quote_append, skipBlanks_cons (by decide)]
  simp only [readString_quote, Option.bind_eq_bind, Option.bind_some,
    skipBlanks_cons (show isBlank ':' = false by rfl), hread,
    skipBlanks_cons (show isBlank ',' = false by rfl), hrest]
  rfl

/-- All members of an object are read back, if each of their values is. -/
theorem readMembers_append {members : List (Option String × Json)} (hne : members ≠ [])
    (hnames : ∀ m ∈ members, m.1.isSome) (hvalues : ∀ m ∈ members, m.2.ReadsBack)
    (hfuel : 2 * (writeMembers members).length < fuel) :
    readMembers fuel (writeMembers members ++ cs) = some (members, cs) := by
  induction members generalizing fuel with
  | nil => exact absurd rfl hne
  | cons m rest ih =>
    obtain ⟨name, value⟩ := m
    obtain ⟨fuel, rfl⟩ := Nat.exists_eq_succ_of_ne_zero (Nat.ne_zero_of_lt hfuel)
    obtain ⟨text, rfl⟩ := Option.isSome_iff_exists.mp (hnames (name, value) List.mem_cons_self)
    have hvalue : value.ReadsBack := hvalues (some text, value) List.mem_cons_self
    cases rest with
    | nil =>
      simp only [writeMembers, List.cons_append, List.append_assoc, List.length_append,
        List.length_cons] at hfuel ⊢
      exact readMembers_last hvalue (by omega)
    | cons next rest =>
      simp only [writeMembers.eq_3 _ _ _ (List.cons_ne_nil next rest), List.append_assoc,
        List.cons_append, List.length_append, List.length_cons] at hfuel ⊢
      exact readMembers_more hvalue (by omega) (ih (List.cons_ne_nil next rest)
        (fun m hm => hnames m (List.mem_cons_of_mem _ hm))
        (fun m hm => hvalues m (List.mem_cons_of_mem _ hm)) (by omega))

/-- Arrays are read back if their items are. -/
theorem readsBack_array {items : List Json} (hproper : ∀ item ∈ items, item.Proper)
    (hitems : ∀ item ∈ items, item.ReadsBack) : ReadsBack (.array items) := by
  refine readsBack_of_succ (by simp [write]) fun fuel cs hfuel hcs => ?_
  rw [write, List.length_cons] at hfuel
  rw [write, List.cons_append, readValue, skipBlanks_cons (by decide)]
  rcases hall : items with - | ⟨item, rest⟩
  · rfl
  · have hread := @readItems_append cs fuel items (by simp [hall]) hitems (by omega)
    obtain ⟨c, left, hhead, hblank, hclose⟩ : ∃ c left, writeItems items ++ cs = c :: left ∧
        isBlank c = false ∧ c ≠ ']' := by
      obtain ⟨c, left, hwrite, hc⟩ := (hproper item (by simp [hall])).exists_write_eq
      subst hall
      cases rest with
      | nil => exact ⟨c, _, by rw [writeItems, hwrite]; rfl, hc⟩
      | cons next rest =>
        exact ⟨c, _, by rw [writeItems.eq_3 _ _ (List.cons_ne_nil next rest), hwrite]; rfl, hc⟩
    rw [← hall]
    rw [hhead] at hread ⊢
    simp only [skipBlanks_cons hblank]
    split
    · next heq => exact absurd (List.cons.inj heq).1 hclose
    · rw [hread]
      rfl

theorem readsBack_object {members : List (Option String × Json)}
    (hnames : ∀ m ∈ members, m.1.isSome) (hvalues : ∀ m ∈ members, m.2.ReadsBack) :
    ReadsBack (.object members) := by
  refine readsBack_of_succ (by simp [write]) fun fuel cs hfuel hcs => ?_
  rw [write, List.length_cons] at hfuel
  rw [write, List.cons_append, readValue, skipBlanks_cons (by decide)]
  rcases hall : members with - | ⟨⟨name, value⟩, rest⟩
  · rfl
  · have hread := @readMembers_append cs fuel members (by simp [hall]) hnames hvalues (by omega)
    obtain ⟨left, hhead⟩ : ∃ left, writeMembers members ++ cs = '"' :: left := by
      obtain ⟨text, rfl⟩ := Option.isSome_iff_exists.mp (hnames (name, value) (by simp [hall]))
      subst hall
      cases rest with
      | nil => exact ⟨_, by rw [writeMembers, quote_append]; rfl⟩
      | cons next rest =>
        exact ⟨_, by rw [writeMembers.eq_3 _ _ _ (List.cons_ne_nil next rest), quote_append]; rfl⟩
    rw [← hall]
    rw [hhead] at hread ⊢
    simp only [skipBlanks_cons (show isBlank '"' = false by rfl)]
    split
    · next heq => exact absurd (List.cons.inj heq).1 (by decide)
    · rw [hread]
      rfl

theorem readsBack_text (text : String) : ReadsBack (.string (some text)) := by
  refine readsBack_of_succ (by simp [write, quote]) fun fuel cs _ _ => ?_
  rw [write, quote_append, readValue, skipBlanks_cons (by decide)]
  simp only [readString_quote, Option.map_some]

/-- A document that its text tells completely is read back. -/
theorem Proper.readsBack (h : document.Proper) : document.ReadsBack := by
  induction h with
  | null =>
    refine readsBack_of_succ (by simp [write]) fun fuel cs _ _ => ?_
    rw [readValue]
    rfl
  | boolean value =>
    cases value <;>
    · refine readsBack_of_succ (by simp [write]) fun fuel cs _ _ => ?_
      rw [readValue]
      rfl
  | number hn => exact readsBack_number hn
  | string text => exact readsBack_text text
  | array hproper ih => exact readsBack_array hproper ih
  | object hnames hproper ih => exact readsBack_object hnames ih

/-- A proper document that is written out is read back as it was. -/
theorem parse_render (h : document.Proper) : parse (render document) = some document := by
  unfold parse render
  have hread := h.readsBack (2 * document.write.length + 1) [] (by omega) endsNumber_nil
  rw [List.append_nil] at hread
  simp only [String.toList_ofList, hread]
  rfl

end Values

end Json

end NeighborSearch
