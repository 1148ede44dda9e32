import NeighborSearch.Error

/-!
# Conversions between number formats

Points are stored in binary32 while distances are computed in binary64, and elements may also be
integers. Every conversion here is exact arithmetic on sign, significand and exponent, followed by
one rounding: to the nearest number of the target format (ties to the even significand) or to the
nearest integer (ties away from zero). NaN, the infinities and the sign of zero are kept.
-/

namespace NeighborSearch

open Float.Model (Format UnpackedFloat)
open Float.Model.UnpackedFloat (Sign)

/-- The nearest value of a format, the even significand winning a tie. Packing the result turns a
value beyond the largest finite number into an infinity. -/
def reformat (format : Format) : UnpackedFloat → UnpackedFloat
  | .finite sign significand exponent _ => .round format sign significand exponent
  | special => special

/-- The binary64 number equal to a binary32 number. -/
def widen (x : Float32) : Float :=
  .ofModel (.pack (reformat .binary64 x.toModel.unpack))

/-- The binary32 number nearest to a binary64 number. -/
def narrow (x : Float) : Float32 :=
  .ofModel (.pack (reformat .binary32 x.toModel.unpack))

/-- The binary64 number nearest to an integer. -/
def floatOfInt (n : Int) : Float :=
  .ofModel (.ofInt n)

/-- The integer nearest to `significand * 2 ^ exponent`, a half going up. -/
def nearestNat (significand : Nat) (exponent : Int) : Nat :=
  if 0 ≤ exponent then significand <<< exponent.toNat
  else
    let places := (-exponent).toNat
    (significand + 1 <<< (places - 1)) >>> places

/-- The integer between `low` and `high` that is nearest to a number, a half going away from zero.
NaN counts as zero. -/
def nearestInt (low high : Int) (x : Float) : Int :=
  match x.toModel.unpack with
  | .notANumber => 0
  | .zero _ => 0
  | .infinity .positive => high
  | .infinity .negative => low
  | .finite sign significand exponent _ =>
    max low (min high (sign.apply (nearestNat significand exponent)))

end NeighborSearch
