import NeighborSearch.Decimal.Basic

/-!
# The shortest decimal that reads back

A binary number is written with the fewest digits from which it can be read again, and of several
decimals that short with the one nearest to it. On the grid of decimals with a given number of
digits only the two neighbours of the exact value need a look, since the decimals that read back
form an interval around it.
-/

namespace NeighborSearch.Decimal

/-- Which of two equally near neighbours is taken. -/
inductive Tie where
  /-- The one with the even last digit. -/
  | even
  /-- The larger one. -/
  | upper
deriving DecidableEq, Repr

/-- How many decimal digits a number is written with. -/
def digitCount (n : Nat) : Nat :=
  (digitsOf n).length

/-- The quotient of `significand * 2 ^ exponent` by `10 ^ scale`, as numerator and denominator. -/
def quotient (significand : Nat) (exponent scale : Int) : Nat × Nat :=
  (significand <<< exponent.toNat * Nat.pow 10 (-scale).toNat,
    Nat.pow 10 scale.toNat <<< (-exponent).toNat)

/-- The power of ten of the leading digit of `significand * 2 ^ exponent`. -/
def leadingPower (significand : Nat) (exponent : Int) : Int :=
  let (num, den) := quotient significand exponent 0
  if den ≤ num then digitCount (num / den) - 1
  else -(digitCount ((den + num - 1) / num - 1))

/-- Takes the factors of ten out of the significand. -/
def trim (d : Decimal) : Decimal :=
  if _h : d.digits ≠ 0 ∧ d.digits % 10 = 0 then trim ⟨d.digits / 10, d.exponent + 1⟩ else d
termination_by d.digits
decreasing_by omega

/-- The better of the two neighbours of the value on the grid `10 ^ scale`, among those that
`reads` accepts. -/
def neighbour? (tie : Tie) (reads : Decimal → Bool) (significand : Nat) (exponent scale : Int) :
    Option Decimal :=
  let (num, den) := quotient significand exponent scale
  let below : Decimal := ⟨num / den, scale⟩
  let above : Decimal := ⟨num / den + 1, scale⟩
  match reads below, reads above with
  | false, false => none
  | true, false => some below
  | false, true => some above
  | true, true =>
    match compare (2 * (num % den)) den with
    | .lt => some below
    | .gt => some above
    | .eq => if tie = .even ∧ below.digits % 2 = 0 then some below else some above

/-- The value itself, with all its digits. -/
def exact (significand : Nat) (exponent : Int) : Decimal :=
  ⟨significand <<< exponent.toNat * Nat.pow 5 (-exponent).toNat, -(-exponent).toNat⟩

/-- The most digits that are tried before the value is written out in full. Seventeen tell any two
binary64 numbers apart. -/
def mostDigits : Nat := 17

/-- The shortest decimal that `reads` accepts, the nearest to `significand * 2 ^ exponent` among
those. -/
def shortest (tie : Tie) (reads : Decimal → Bool) (significand : Nat) (exponent : Int) :
    Decimal :=
  let top := leadingPower significand exponent
  let found := (List.range mostDigits).findSome? fun n : Nat =>
    neighbour? tie reads significand exponent (top - n)
  (found.getD (exact significand exponent)).trim

end NeighborSearch.Decimal
