import NeighborSearch.Element
import NeighborSearch.Metric.Basic
import NeighborSearch.Query

/-!
# Events

Operations report what they did by `Event`s. A `Traced` computation carries the events it has
reported together with its result; events reported before a failure are kept.
-/

namespace NeighborSearch

/-- What an operation reports. -/
inductive Event where
  /-- Points were stored. -/
  | fitted (samples features : Nat) (elementType : ElementType) (metric : Metric)
  /-- Neighbors of query points were looked for. -/
  | query (queries k : Nat) (withDistances : Bool)
  /-- Neighbors of the stored points were looked for. -/
  | selfQuery (queries k : Nat) (selfMatch : SelfMatch) (withDistances : Bool)
  /-- A neighbor graph was put together. -/
  | assembly (entries k columns : Nat) (mode : GraphMode)
deriving Repr

namespace Event

/-- How important an event is. -/
def level : Event → String
  | .assembly .. => "TRACE"
  | _ => "DEBUG"

/-- What an event says. -/
def message : Event → String
  | .fitted .. => "fitted nearest-neighbor index"
  | .query .. => "kneighbors query"
  | .selfQuery .. => "kneighbors query on fitted set"
  | .assembly .. => "assembling neighbor graph"

end Event

/-- A computation that reports events and may fail. -/
structure Traced (α : Type) where
  events : List Event
  result : Except Error α

namespace Traced

variable {α β : Type}

/-- A value without events. -/
protected def pure (a : α) : Traced α := ⟨[], .ok a⟩

/-- Runs one computation after another, unless the first one fails. -/
protected def bind (x : Traced α) (f : α → Traced β) : Traced β :=
  match x.result with
  | .ok a =>
    let y := f a
    ⟨x.events ++ y.events, y.result⟩
  | .error e => ⟨x.events, .error e⟩

instance : Monad Traced where
  pure := Traced.pure
  bind := Traced.bind

/-- Reports one event. -/
def emit (event : Event) : Traced Unit := ⟨[event], .ok ()⟩

/-- An outcome without events. -/
def ofExcept (result : Except Error α) : Traced α := ⟨[], result⟩

instance : MonadLift (Except Error) Traced := ⟨ofExcept⟩

end Traced

end NeighborSearch
