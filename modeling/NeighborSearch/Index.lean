import NeighborSearch.Neighbors

/-!
# Indexes

Anything that answers neighbor queries is a `NeighborIndex`. Its answers may come with effects, so
it is given over a monad. Neighbor graphs need nothing more: they are made from the number of stored
points and one query. `recorded` notes every question that an index is asked.
-/

namespace NeighborSearch

/-- What an index of neighbors has to answer. -/
structure NeighborIndex (m : Type → Type) where
  sampleCount : m Nat
  /-- The neighbors of each row of a matrix. -/
  query : {α : Type} → [Element α] → Matrix α → Option Nat → Bool → m Neighbors
  queryFitted : Option Nat → SelfMatch → Bool → m Neighbors

namespace NeighborIndex

variable {m : Type → Type} [Monad m] [MonadLiftT Traced m]

/-- The graph that joins the rows of a matrix with their neighbors. -/
def graph {α : Type} [Element α] (index : NeighborIndex m) (x : Matrix α) (k : Option Nat)
    (mode : GraphMode) : m SparseMatrix := do
  let columns ← index.sampleCount
  let found ← index.query x k mode.needsDistances
  liftM (found.toGraph columns mode)

/-- The graph that joins the stored points with their neighbors. -/
def graphFitted (index : NeighborIndex m) (k : Option Nat) (mode : GraphMode)
    (selfMatch : SelfMatch) : m SparseMatrix := do
  let columns ← index.sampleCount
  let found ← index.queryFitted k selfMatch mode.needsDistances
  liftM (found.toGraph columns mode)

end NeighborIndex

/-- A question put to an index. -/
inductive Question where
  | sampleCount
  | query (rows : Nat) (k : Option Nat) (withDistances : Bool)
  | queryFitted (k : Option Nat) (selfMatch : SelfMatch) (withDistances : Bool)
deriving DecidableEq, Repr

/-- A computation that works on a state and may fail. What it did to the state stays, even if it
fails. -/
abbrev Stateful (σ : Type) := ExceptT Error (StateM σ)

namespace Stateful

variable {σ α : Type}

/-- The outcome of a computation that starts from a state, and the state it leaves behind. -/
def runFrom (x : Stateful σ α) (s : σ) : Except Error α × σ :=
  x.run.run s

/-- Events are no part of the state. -/
instance : MonadLift Traced (Stateful σ) := ⟨fun x => fun s => (x.result, s)⟩

end Stateful

/-- A computation that keeps a list of the questions asked so far and may fail. -/
abbrev Asking := Stateful (List Question)

namespace Asking

/-- Notes a question and gives its answer. -/
def ask {α : Type} (question : Question) (answer : Except Error α) : Asking α :=
  fun asked => (answer, asked ++ [question])

/-- The outcome of a computation and all the questions it asked. -/
def answer {α : Type} (x : Asking α) : Except Error α × List Question :=
  x.runFrom []

end Asking

/-- The same index, with a note taken of every question. -/
def NeighborIndex.recorded (index : NeighborIndex (Except Error)) : NeighborIndex Asking where
  sampleCount := Asking.ask .sampleCount index.sampleCount
  query x k withDistances :=
    Asking.ask (.query x.rows k withDistances) (index.query x k withDistances)
  queryFitted k selfMatch withDistances :=
    Asking.ask (.queryFitted k selfMatch withDistances)
      (index.queryFitted k selfMatch withDistances)

end NeighborSearch
