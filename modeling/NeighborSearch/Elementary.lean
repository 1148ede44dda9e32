/-!
# Elementary functions

Sine, cosine, arc sine and power on binary64 numbers. The laws that distances rest on hold by
construction: sine is odd, cosine is even and bounded, zero is a fixed point of sine and arc sine,
and a positive power of zero is zero. Between these values the functions are those of the machine.
-/

namespace NeighborSearch

/-- The number that stands for no result. -/
def notANumber : Float := 0.0 / 0.0

/-- The sine of an angle in radians. Angles of opposite sign have sines of opposite sign. -/
def sine (x : Float) : Float :=
  if x < 0 then -(Float.sin (-x))
  else if 0 < x then Float.sin x
  else x

/-- The cosine of an angle in radians, a number between -1 and 1 for every finite angle. -/
def cosine (x : Float) : Float :=
  if x.isFinite then
    let c := Float.cos x.abs
    if -1 ≤ c && c ≤ 1 then c else 1
  else notANumber

/-- The angle between -π/2 and π/2 with a given sine. -/
def arcSine (x : Float) : Float :=
  if x == 0 then x else Float.asin x

/-- The power `base ^ exponent`. Zero to a positive exponent is zero, and NaN to an exponent other
than zero is NaN. -/
def power (base exponent : Float) : Float :=
  if exponent == 0 then 1
  else if base.isNaN then base
  else if base = 0 && 0 < exponent then base
  else Float.pow base exponent

end NeighborSearch
