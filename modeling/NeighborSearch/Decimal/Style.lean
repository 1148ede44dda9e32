import NeighborSearch.Decimal.Shortest

/-!
# How numbers are written

A `Style` says how the digits of a binary number are set: which way ties go, where positional
notation ends and whether whole numbers show a fraction. Numbers in messages are `plain`, numbers
out of range are `scientific`, and the two `interchange` styles are those of stored documents.
-/

namespace NeighborSearch.Decimal

open Float.Model.UnpackedFloat (Sign)

/-- The decisions of a number format. -/
structure Style where
  /-- Which of two equally short and equally near decimals is written. -/
  tie : Tie
  /-- Whether a number is written without an exponent, given how many of its digits stand before
  the point (a count at or below zero is a number below one). -/
  positional : Int → Bool
  /-- Whether a whole number in positional notation is written with the fraction `0`. -/
  wholeFraction : Bool

/-- Numbers in messages: never an exponent, however many zeros that takes. -/
def plain : Style := ⟨.upper, fun _ => true, false⟩

/-- Numbers in messages about ranges: always an exponent. -/
def scientific : Style := ⟨.upper, fun _ => false, false⟩

/-- Stored binary64 numbers: positional from `0.00001` up to sixteen digits before the point. -/
def interchange : Style := ⟨.even, fun point => -5 < point && point ≤ 16, true⟩

/-- Stored binary32 numbers: positional from `0.000001` up to thirteen digits before the point. -/
def interchange32 : Style := ⟨.even, fun point => -6 < point && point ≤ 13, true⟩

/-- Sets the digits of a decimal. -/
def Style.layout (style : Style) (negative : Bool) (d : Decimal) : Numeral :=
  let digits := digitsOf d.digits
  let point : Int := digits.length + d.exponent
  if style.positional point then
    if point ≤ 0 then ⟨negative, ['0'], List.replicate (-point).toNat '0' ++ digits, none⟩
    else if (digits.length : Int) ≤ point then
      ⟨negative, digits ++ List.replicate (point - digits.length).toNat '0',
        if style.wholeFraction then ['0'] else [], none⟩
    else ⟨negative, digits.take point.toNat, digits.drop point.toNat, none⟩
  else ⟨negative, digits.take 1, digits.drop 1, some (point - 1)⟩

/-- The numeral of a finite binary64 number. -/
def Style.float? (style : Style) (x : Float) : Option Numeral :=
  match x.toModel.unpack with
  | .zero sign => some (style.layout (sign == .negative) ⟨0, 0⟩)
  | .finite sign significand exponent _ =>
    let reads := fun d : Decimal => decide (d.toFloat = x.abs)
    some (style.layout (sign == .negative) (shortest style.tie reads significand exponent))
  | _ => none

/-- The shortest numeral that reads as a binary32 number; infinities and NaN have none. -/
def Style.float32? (style : Style) (x : Float32) : Option Numeral :=
  match x.toModel.unpack with
  | .zero sign => some (style.layout (sign == .negative) ⟨0, 0⟩)
  | .finite sign significand exponent _ =>
    let reads := fun d : Decimal => decide (d.toFloat32 = x.abs)
    some (style.layout (sign == .negative) (shortest style.tie reads significand exponent))
  | _ => none

/-- A binary64 number in words: its numeral, in which no exponent has a plus sign, or the name of a
number that has none. -/
def Style.describe (style : Style) (x : Float) : String :=
  match style.float? x with
  | some n => String.ofList (n.text [])
  | none => if x.isNaN then "NaN" else if x < 0 then "-inf" else "inf"

end NeighborSearch.Decimal
