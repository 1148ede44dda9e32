/-!
# Why an operation fails

An `Error` names a cause together with the values that its wording shows. The wording of every
cause is fixed in one place, `Error.message`.
-/

namespace NeighborSearch

/-- The reasons for which an operation of this library has no result. -/
inductive Error where
  /-- A query reached an estimator that holds no points. -/
  | notFitted (estimator : String)
  /-- Elements of one type could not be stored as another. -/
  | dataConversion (source target reason : String)
  /-- Two sizes that have to agree do not. -/
  | dimensionMismatch (expected actual : String)
  /-- A parameter lies outside its admissible range. -/
  | invalidHyperparameter (param value constraint : String)
  /-- No metric goes by this name. -/
  | unsupportedMetric (name : String)
  /-- The data handed in cannot be used. -/
  | invalidInput (message : String)
  /-- Any other cause, told in full. -/
  | other (message : String)
  /-- The program stopped: a position outside the stored data was asked for, or a size that the
  machine cannot hold. -/
  | outOfBounds
deriving DecidableEq, Repr

namespace Error

/-- The wording of an error. -/
def message : Error → String
  | .notFitted estimator => estimator ++ " is not fitted yet: call fit before querying"
  | .dataConversion source target reason =>
    "Data conversion from " ++ source ++ " to " ++ target ++ " failed: " ++ reason
  | .dimensionMismatch expected actual =>
    "dimension mismatch: expected " ++ expected ++ ", got " ++ actual
  | .invalidHyperparameter param value constraint =>
    "Invalid hyperparameter: " ++ param ++ " = " ++ value ++ ", expected " ++ constraint
  | .unsupportedMetric name => "Unsupported metric: " ++ name
  | .invalidInput text => "Invalid input: " ++ text
  | .other text => text
  | .outOfBounds => "index out of bounds"

/-- The size named by `context` should have been `expected`. -/
def sizeMismatch (context : String) (expected actual : Nat) : Error :=
  .dimensionMismatch (context ++ "=" ++ Nat.repr expected) (Nat.repr actual)

/-- There is nothing to work on. -/
def emptyInput (context : String) : Error :=
  .invalidInput ("empty input: " ++ context)

end Error

/-- An access that found nothing is out of bounds, and so is a size that could not be computed. -/
def orOutOfBounds {α : Type} : Option α → Except Error α
  | some a => .ok a
  | none => .error .outOfBounds

end NeighborSearch
