import NeighborSearch.Error

/-!
# What a query asks for

The two choices of a query: what the entries of a neighbor graph hold, and whether a point counts as
a neighbor of itself.
-/

namespace NeighborSearch

/-- What the entries of a neighbor graph hold. -/
inductive GraphMode where
  /-- Every neighbor counts one. -/
  | connectivity
  /-- Every neighbor counts its distance. -/
  | distance
deriving DecidableEq, Repr

namespace GraphMode

/-- The mode when none is given. -/
def standard : GraphMode := .connectivity

/-- The name of a mode, as it is read and shown. -/
def name : GraphMode → String
  | .connectivity => "connectivity"
  | .distance => "distance"

/-- Every mode. -/
def all : List GraphMode := [.connectivity, .distance]

/-- The mode of a given name, which has to be spelt exactly. -/
def ofName (name : String) : Except Error GraphMode :=
  match name with
  | "connectivity" => .ok .connectivity
  | "distance" => .ok .distance
  | other => .error (.invalidHyperparameter "mode" other "'connectivity' or 'distance'")

/-- Whether a graph shows the distances that a query reports. -/
def needsDistances : GraphMode → Bool
  | .connectivity => false
  | .distance => true

end GraphMode

/-- Whether a stored point counts as a neighbor of itself. -/
inductive SelfMatch where
  | include
  | exclude
deriving DecidableEq, Repr

namespace SelfMatch

/-- The choice when none is given. -/
def standard : SelfMatch := .include

/-- The name of a choice, as it is read and shown. -/
def name : SelfMatch → String
  | .include => "include"
  | .exclude => "exclude"

/-- Both choices. -/
def all : List SelfMatch := [.include, .exclude]

/-- How many of the stored points can be neighbors of one of them. -/
def candidateCount (choice : SelfMatch) (samples : Nat) : Nat :=
  match choice with
  | .include => samples
  | .exclude => samples - 1

end SelfMatch

end NeighborSearch
