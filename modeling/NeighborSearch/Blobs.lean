import NeighborSearch.Decimal.Style
import NeighborSearch.Elementary
import NeighborSearch.Matrix

/-!
# Synthetic points

`makeBlobs` draws points around random centers, as evenly as possible: center `c` gets one point
more than the others if `c` is below the remainder. Chance comes from a `RandomSource`, of which
only one law is needed: shuffling rearranges.
-/

namespace NeighborSearch

/-- A source of chance whose state is a `σ`. -/
structure RandomSource (σ : Type) where
  between : Float → Float → StateM σ Float
  shuffle : List Nat → StateM σ (List Nat)
  /-- Nothing is lost or made up by shuffling. -/
  shuffle_perm : ∀ xs s, ((shuffle xs).run s).1.Perm xs

namespace Blobs

/-- The least positive number with all its digits, where logarithms are taken from. -/
def leastPositive : Float := Float.ofBits 0x0010000000000000

/-- The full turn in radians. -/
def fullTurn : Float := 2 * 3.141592653589793

variable {σ : Type} (source : RandomSource σ)

/-- Draws from the standard normal distribution by the transform of Box and Muller. -/
def standardNormal : StateM σ Float := do
  let u ← source.between leastPositive 1
  let v ← source.between 0 1
  return (-2 * Float.log u).sqrt * cosine (fullTurn * v)

/-- The number of points around a center: all centers have the same, and the first ones take one
each of what remains. -/
def clusterSize (samples centers c : Nat) : Nat :=
  samples / centers + if c < samples % centers then 1 else 0

/-- The center of each point, before shuffling. -/
def sortedLabels (samples centers : Nat) : List Nat :=
  (List.range centers).flatMap fun c => List.replicate (clusterSize samples centers c) c

/-- Draws a number for each item of a list, from the first item to the last. -/
def drawEach {α : Type} (draw : α → StateM σ Float) : List α → StateM σ (List Float)
  | [] => return []
  | x :: xs => do
    let y ← draw x
    return y :: (← drawEach draw xs)

/-- Draws a point whose coordinates scatter around those of a center. -/
def drawPoint (deviation : Float) (center : List Float) : StateM σ (List Float) :=
  drawEach (fun mu => do return mu + deviation * (← standardNormal source)) center

/-- An outcome that leaves chance alone. -/
def settled {α : Type} (result : Except Error α) : ExceptT Error (StateM σ) α :=
  ExceptT.mk (pure result)

/-- Draws a point for each label, around the row of `centers` that the label names. -/
def drawPoints (deviation : Float) (centers : Matrix Float) :
    List Nat → ExceptT Error (StateM σ) (List (List Float))
  | [] => return []
  | label :: rest => do
    let center ← settled (orOutOfBounds (centers.row? label))
    let point ← drawPoint source deviation center
    return point :: (← drawPoints deviation centers rest)

/-- Checks what the points shall be like. -/
def validate (samples features centers : Nat) (deviation : Float) : Except Error Unit :=
  if samples = 0 ∨ features = 0 then
    .error (.emptyInput ("cannot generate a " ++ Nat.repr samples ++ "x" ++ Nat.repr features
      ++ " dataset"))
  else if centers = 0 then .error (.invalidHyperparameter "centers" "0" ">= 1")
  else if !deviation.isFinite || deviation < 0 then
    .error (.invalidHyperparameter "cluster_std" (Decimal.plain.describe deviation)
      "finite and >= 0")
  else .ok ()

/-- Points scattered around random centers, and the center of each of them. -/
def makeBlobs (samples features centers : Nat) (deviation : Float) :
    ExceptT Error (StateM σ) (Matrix Float × List Nat) := do
  settled (validate samples features centers deviation)
  let coordinates ← drawEach (fun _ => source.between (-10) 10) (List.range (centers * features))
  let labels ← source.shuffle (sortedLabels samples centers)
  let points ← drawPoints source deviation ⟨centers, features, coordinates.toArray⟩ labels
  let x ← settled (Matrix.ofArray samples features points.flatten.toArray)
  return (x, labels)

/-! ## The standard source -/

/-- A random number below `bound`. -/
def below (bound : Nat) : StateM StdGen Nat := fun g =>
  randNat g 0 (bound - 1)

/-- Takes items out of a list at random, as many as are left. -/
def takeOut : Nat → List Nat → StateM StdGen (List Nat)
  | 0, xs => return xs
  | left + 1, xs => do
    let i ← below xs.length
    match xs[i]? with
    | some x => return x :: (← takeOut left (xs.eraseIdx i))
    | none => return xs

/-- The number of equal steps that random numbers between 0 and 1 are drawn from. -/
def steps : Nat := 0x20000000000000

/-! ### Shuffling by taking items out -/

section Shuffling

/-- An item taken out and put in front is all that has moved. -/
theorem cons_eraseIdx_perm {xs : List Nat} {i : Nat} (hi : i < xs.length) :
    (xs[i] :: xs.eraseIdx i).Perm xs := by
  induction xs generalizing i with
  | nil => simp at hi
  | cons x xs ih =>
    cases i with
    | zero => simp
    | succ i =>
      have hi : i < xs.length := by simpa using hi
      simpa using (List.Perm.swap x xs[i] (xs.eraseIdx i)).trans ((ih hi).cons x)

/-- Taking items out at random rearranges a list. -/
theorem takeOut_perm (left : Nat) (xs : List Nat) (g : StdGen) :
    ((takeOut left xs).run g).1.Perm xs := by
  induction left generalizing xs g with
  | zero => exact .refl xs
  | succ left ih =>
    have hstep : (takeOut (left + 1) xs).run g =
        (match xs[(below xs.length g).1]? with
          | some x => do return x :: (← takeOut left (xs.eraseIdx (below xs.length g).1))
          | none => return xs : StateM StdGen (List Nat)).run (below xs.length g).2 := rfl
    rw [hstep]
    cases hx : xs[(below xs.length g).1]? with
    | none => exact .refl xs
    | some x =>
      obtain ⟨hi, rfl⟩ := List.getElem?_eq_some_iff.1 hx
      exact ((ih _ _).cons _).trans (cons_eraseIdx_perm hi)

end Shuffling

/-- Chance from the standard generator. -/
def standardSource : RandomSource StdGen where
  between low high := do
    let n ← below steps
    return low + (high - low) * (floatOfInt n / floatOfInt steps)
  shuffle xs := takeOut xs.length xs
  shuffle_perm xs := takeOut_perm xs.length xs

end Blobs

end NeighborSearch
