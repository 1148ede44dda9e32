/-!
# Sizes

The sizes and lengths of this library are machine words of 64 binary digits. A sum or a product of
sizes may outgrow a word. A program that checks its arithmetic stops then, and one that does not
goes on with the last 64 digits: `Overflow` names the two, and what computes a size from sizes that
a caller may choose freely depends on it. An array is bounded too, by the bytes that it takes.
-/

namespace NeighborSearch

/-- The first number that is no machine word, `2 ^ 64`. -/
def wordBound : Nat := 0x10000000000000000

/-- What becomes of a size that outgrows a machine word. -/
inductive Overflow where
  /-- The program stops. -/
  | stops
  /-- The program goes on with the last 64 binary digits of the size. -/
  | wraps
deriving DecidableEq, Repr

namespace Overflow

/-- A size as the program computes it, unless it stops. -/
def size? (overflow : Overflow) (n : Nat) : Option Nat :=
  if n < wordBound then some n
  else
    match overflow with
    | .stops => none
    | .wraps => some (n % wordBound)

/-- The computed size that a length is compared with. A length is a word already, so a size that is
equal to it has not outgrown a word. -/
def sizeFor? (overflow : Overflow) (length n : Nat) : Option Nat :=
  if length = n then some n else overflow.size? n

end Overflow

/-- So many binary32 numbers find room in one array, which takes fewer than `2 ^ 63` bytes. -/
def FitsArray (count : Nat) : Prop := 4 * count < 0x8000000000000000

instance : DecidablePred FitsArray := fun _ => inferInstanceAs (Decidable (_ < _))

end NeighborSearch
