import NeighborSearch.Precision

/-!
# Decimal numerals

A `Decimal` is an exact value `digits * 10 ^ exponent`. A `Numeral` is a number as it is written:
sign, whole part, fraction and exponent. Reading a numeral as a binary number rounds once, and only
as many digits are read as decide between two neighbors.
-/

namespace NeighborSearch

/-- The value `digits * 10 ^ exponent`. -/
structure Decimal where
  digits : Nat
  exponent : Int
deriving DecidableEq, Repr

namespace Decimal

/-- The binary64 number nearest to a decimal. -/
def toFloat (d : Decimal) : Float :=
  .ofModel (.ofScientific d.digits d.exponent)

/-- The binary32 number nearest to a decimal. -/
def toFloat32 (d : Decimal) : Float32 :=
  .ofModel (.ofScientific d.digits d.exponent)

end Decimal

/-- The value of a decimal digit; any other character counts as zero. -/
def digitValue (c : Char) : Nat :=
  if c.isDigit then c.toNat - 48 else 0

/-- The number that decimal digits stand for, the first digit counting most. -/
def digitsValue (ds : List Char) : Nat :=
  ds.foldl (fun n c => 10 * n + digitValue c) 0

/-- The digits of a number, without leading zeros. -/
def digitsOf (n : Nat) : List Char :=
  Nat.toDigits 10 n

/-- A number as it is written. -/
structure Numeral where
  negative : Bool
  whole : List Char
  /-- The digits after the point; there is no point when there are none. -/
  fraction : List Char
  /-- The exponent, if one is written. -/
  exponent : Option Int
deriving DecidableEq, Repr

namespace Numeral

/-- An integer, written without a fraction and without an exponent. -/
def ofInt (n : Int) : Numeral :=
  ⟨decide (n < 0), digitsOf n.natAbs, [], none⟩

/-- The written form. `plus` stands in front of an exponent that is not negative. -/
def text (plus : List Char) (n : Numeral) : List Char :=
  (if n.negative then ['-'] else []) ++ n.whole
    ++ (if n.fraction.isEmpty then [] else '.' :: n.fraction)
    ++ (match n.exponent with
      | none => []
      | some e => 'e' :: ((if e < 0 then ['-'] else plus) ++ digitsOf e.natAbs))

/-- The digits after the point without the zeros at their end. -/
def trimmedFraction (n : Numeral) : List Char :=
  (n.fraction.reverse.dropWhile (· == '0')).reverse

/-- The digits from the first that is not zero, without the zeros at the end of the fraction. -/
def significant (n : Numeral) : List Char :=
  (n.whole ++ n.trimmedFraction).dropWhile (· == '0')

/-- The value that stands for a numeral, its sign apart, when at most `limit` of its significant
digits are read. The digits that follow them, even if all are zero, count as one digit `1`. -/
def curtailed (limit : Nat) (n : Numeral) : Decimal :=
  let digits := n.significant
  let exponent := n.exponent.getD 0 - n.trimmedFraction.length
  if digits.length ≤ limit then ⟨digitsValue digits, exponent⟩
  else ⟨10 * digitsValue (digits.take limit) + 1, exponent + (digits.length - limit - 1 : Nat)⟩

/-- The binary64 number that is read, with the sign that is written. A number halfway between two
neighbors has at most 768 digits, so the nearest number is read, except that a halfway number
written with more digits counts as greater. -/
def toFloat (n : Numeral) : Float :=
  let magnitude := (n.curtailed 768).toFloat
  if n.negative then -magnitude else magnitude

/-- The binary32 number that is read, with the sign that is written. A number halfway between two
neighbors has at most 113 digits, so the nearest number is read, except that a halfway number
written with more digits counts as greater. -/
def toFloat32 (n : Numeral) : Float32 :=
  let magnitude := (n.curtailed 113).toFloat32
  if n.negative then -magnitude else magnitude

/-- The integer that is written. A numeral with a fraction or an exponent is no integer, and
neither is a negative zero. -/
def toInt? (n : Numeral) : Option Int :=
  if n.fraction.isEmpty && n.exponent.isNone then
    let value := digitsValue n.whole
    if n.negative then if value = 0 then none else some (-value) else some value
  else none

end Numeral

end NeighborSearch
