import NeighborSearch.Storage
import NeighborSearch.Index
import NeighborSearch.Ranking

/-!
# The nearest-neighbor estimator

An `Estimator` is configured with a number of neighbors and a metric, is fitted to points, and then
answers queries by comparing every query point with every stored point. The configuration may be
changed at any time and keeps the stored points; it is checked when points are stored.
-/

namespace NeighborSearch

/-- How an estimator searches. -/
structure Config where
  /-- The number of neighbors of a query that names none. -/
  neighbors : Nat := 5
  metric : Metric := .standard
deriving BEq, Repr

namespace Config

/-- The refusal of a number of neighbors. -/
def neighborsError (k : Nat) (constraint : String) : Error :=
  .invalidHyperparameter "n_neighbors" (Nat.repr k) constraint

/-- Checks the number of neighbors and then the metric. -/
def validate (config : Config) : Except Error Unit :=
  if config.neighbors = 0 then .error (neighborsError 0 ">= 1") else config.metric.validate

end Config

/-- The points that an estimator holds. -/
structure FittedSet where
  data : Matrix Float32
  elementType : ElementType
deriving Repr

/-- A nearest-neighbor search over stored points. -/
structure Estimator where
  config : Config := {}
  /-- What it searches, once it is fitted. -/
  fitted : Option FittedSet := none
deriving Repr

namespace Estimator

/-- The name by which an estimator is called in messages. -/
def displayName : String := "NearestNeighbors"

/-- An estimator with a configuration that passes its check. -/
def ofConfig (config : Config) : Except Error Estimator :=
  config.validate.map fun _ => { config }

/-- Changes the number of neighbors to look for. The stored points stay. -/
def withNeighbors (e : Estimator) (k : Nat) : Estimator :=
  { e with config := { e.config with neighbors := k } }

/-- Changes the metric. The stored points stay, whether or not the metric can measure them. -/
def withMetric (e : Estimator) (metric : Metric) : Estimator :=
  { e with config := { e.config with metric } }

/-- Changes the exponent of a euclidean or Minkowski metric; other metrics have none and stay. -/
def withExponent (e : Estimator) (p : Float) : Estimator :=
  match e.config.metric with
  | .euclidean | .minkowski _ => e.withMetric (.minkowski p)
  | _ => e

/-- Whether there are stored points. -/
def isFitted (e : Estimator) : Bool := e.fitted.isSome

variable {α : Type} [Element α]

/-- The points to store, after every check has passed. -/
def prepare (e : Estimator) (x : Matrix α) (allowConversion : Bool) : Traced FittedSet := do
  if x.rows = 0 ∨ x.columns = 0 then
    Traced.ofExcept (.error (.emptyInput ("cannot fit on a " ++ Nat.repr x.rows ++ "x"
      ++ Nat.repr x.columns ++ " matrix")))
  else
    e.config.validate
    e.config.metric.validateFeatures x.columns
    let data ← x.toFloat32 allowConversion
    Traced.emit (.fitted x.rows x.columns (elementType α) e.config.metric)
    return ⟨data, elementType α⟩

/-- Stores points. After a failure the estimator holds none, whatever it held before. -/
def fit (e : Estimator) (x : Matrix α) (allowConversion : Bool) : Estimator × Traced Unit :=
  let prepared := e.prepare x allowConversion
  ({ e with fitted := prepared.result.toOption },
    ⟨prepared.events, prepared.result.map fun _ => ()⟩)

/-- The stored points with the type that they were given in, if there are any. -/
def fittedSet (e : Estimator) : Except Error FittedSet :=
  match e.fitted with
  | some stored => .ok stored
  | none => .error (.notFitted displayName)

/-- The stored points as they are kept. -/
def fittedData (e : Estimator) : Except Error (Matrix Float32) :=
  e.fittedSet.map FittedSet.data

variable (α) in
/-- The stored points in another element type. -/
def fittedDataAs (e : Estimator) : Except Error (Matrix α) :=
  e.fittedData.map (Matrix.ofFloat32 α)

/-- The element type that the stored points were given in. -/
def fittedElementType (e : Estimator) : Except Error ElementType :=
  e.fittedSet.map FittedSet.elementType

/-- The number of coordinates of the stored points. -/
def featureCount (e : Estimator) : Except Error Nat :=
  e.fittedData.map Matrix.columns

/-- The number of stored points. -/
def sampleCount (e : Estimator) : Except Error Nat :=
  e.fittedData.map Matrix.rows

/-- The number of neighbors to look for among so many candidates. -/
def resolveNeighbors (e : Estimator) (k : Option Nat) (candidates : Nat) : Except Error Nat :=
  let k := k.getD e.config.neighbors
  if k = 0 then .error (Config.neighborsError k ">= 1")
  else if candidates < k then
    .error (Config.neighborsError k ("<= " ++ Nat.repr candidates ++ " available candidates"))
  else .ok k

/-- Looks up the neighbors of each query point and lays them out. -/
def collect (metric : Metric) (reference queries : Matrix Float32) (k : Nat)
    (selfMatch : SelfMatch) (withDistances : Bool) : Except Error Neighbors := do
  let rows ← orOutOfBounds (search? metric reference queries k selfMatch)
  let found := rows.flatten
  let indices ← Matrix.ofArray rows.length k (found.map Candidate.index).toArray
  if withDistances then
    let distances ← Matrix.ofArray rows.length k
      (found.map fun c => narrow c.distance).toArray
    return ⟨indices, some distances⟩
  else
    return ⟨indices, none⟩

/-- The `k` nearest stored points of each row of a matrix. -/
def query (e : Estimator) (x : Matrix α) (k : Option Nat) (withDistances : Bool) :
    Traced Neighbors := do
  let stored ← e.fittedData
  if x.columns ≠ stored.columns then
    Traced.ofExcept (.error (.sizeMismatch "n_features" stored.columns x.columns))
  else
    let k ← e.resolveNeighbors k stored.rows
    let queries ← x.toFloat32 true
    Traced.emit (.query queries.rows k withDistances)
    collect e.config.metric stored queries k .include withDistances

/-- The `k` nearest stored points of each stored point. -/
def queryFitted (e : Estimator) (k : Option Nat) (selfMatch : SelfMatch) (withDistances : Bool) :
    Traced Neighbors := do
  let stored ← e.fittedData
  let k ← e.resolveNeighbors k (selfMatch.candidateCount stored.rows)
  Traced.emit (.selfQuery stored.rows k selfMatch withDistances)
  collect e.config.metric stored stored k selfMatch withDistances

/-- An estimator answers neighbor queries. -/
def index (e : Estimator) : NeighborIndex Traced where
  sampleCount := e.sampleCount
  query := e.query
  queryFitted := e.queryFitted

end Estimator

/-- The neighbor graph of the rows of a matrix, under a metric. With `includeSelf` the rows are
looked up as query points, otherwise as stored points. -/
def neighborGraph {α : Type} [Element α] (x : Matrix α) (k : Nat) (mode : GraphMode)
    (includeSelf : Bool) (metric : Metric) : Traced SparseMatrix := do
  let (e, fitted) := ((({} : Estimator).withNeighbors k).withMetric metric).fit x true
  fitted
  if includeSelf then e.index.graph x none mode
  else e.index.graphFitted none mode .include

end NeighborSearch
