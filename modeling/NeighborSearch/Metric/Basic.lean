import NeighborSearch.Decimal.Style
import NeighborSearch.Error

/-!
# Metrics

The metrics under which points can be compared, their names, and the two checks that a metric has to
pass before it is used: its own parameter, and the number of coordinates it works on.
-/

namespace NeighborSearch

/-- A way to measure the distance of two points. -/
inductive Metric where
  /-- The root of the summed squares of the coordinate gaps. -/
  | euclidean
  /-- The summed squares of the coordinate gaps. -/
  | sqEuclidean
  /-- The summed coordinate gaps. -/
  | manhattan
  /-- The largest coordinate gap. -/
  | chebyshev
  /-- The `p`-th root of the summed `p`-th powers of the coordinate gaps. -/
  | minkowski (p : Float)
  /-- One minus the cosine of the angle between the points. -/
  | cosine
  /-- One minus the cosine of the angle between the points, each taken from its mean. -/
  | correlation
  /-- The summed coordinate gaps, each relative to the size of its coordinates. -/
  | canberra
  /-- The summed coordinate gaps relative to the summed coordinates. -/
  | brayCurtis
  /-- The great-circle distance on the unit sphere of two points given by latitude and longitude in
  radians. -/
  | haversine
deriving Repr

namespace Metric

/-- Whether two metrics are the same; exponents are compared as numbers. -/
protected def beq : Metric → Metric → Bool
  | .minkowski p, .minkowski q => p == q
  | .euclidean, .euclidean => true
  | .sqEuclidean, .sqEuclidean => true
  | .manhattan, .manhattan => true
  | .chebyshev, .chebyshev => true
  | .cosine, .cosine => true
  | .correlation, .correlation => true
  | .canberra, .canberra => true
  | .brayCurtis, .brayCurtis => true
  | .haversine, .haversine => true
  | _, _ => false

instance : BEq Metric := ⟨Metric.beq⟩

/-- The metric used unless another is asked for. -/
def standard : Metric := .minkowski 2

instance : Inhabited Metric := ⟨standard⟩

/-- The canonical name of a metric, which does not tell the exponent. -/
def name : Metric → String
  | .euclidean => "euclidean"
  | .sqEuclidean => "sqeuclidean"
  | .manhattan => "manhattan"
  | .chebyshev => "chebyshev"
  | .minkowski _ => "minkowski"
  | .cosine => "cosine"
  | .correlation => "correlation"
  | .canberra => "canberra"
  | .brayCurtis => "braycurtis"
  | .haversine => "haversine"

/-- The exponent, for the metrics that have one. -/
def exponent? : Metric → Option Float
  | .minkowski p => some p
  | _ => none

/-- The name, with the exponent where there is one. -/
def describe (m : Metric) : String :=
  match m.exponent? with
  | some p => m.name ++ "(p=" ++ Decimal.plain.describe p ++ ")"
  | none => m.name

/-- Every name that is understood. -/
def validNames : List String :=
  ["euclidean", "l2", "sqeuclidean", "manhattan", "l1", "cityblock", "taxicab", "chebyshev", "linf",
    "infinity", "minkowski", "lp", "cosine", "correlation", "canberra", "braycurtis", "haversine"]

/-- Checks the parameter of a metric: an exponent is a number that is at least one. -/
def validate : Metric → Except Error Unit
  | .minkowski p =>
    if p.isNaN || p < 1 then
      .error (.invalidHyperparameter "p" (Decimal.plain.describe p) ">= 1")
    else .ok ()
  | _ => .ok ()

/-- Checks that points with this many coordinates can be measured. -/
def validateFeatures (m : Metric) (features : Nat) : Except Error Unit :=
  match m with
  | .haversine =>
    if features = 2 then .ok () else .error (.sizeMismatch "haversine n_features" 2 features)
  | _ => .ok ()

/-- The metric that goes by a name in lower case. Only the Minkowski family looks at the exponent,
which is two when none is given. -/
def ofLowerName? (name : String) (p : Option Float) : Option Metric :=
  match name with
  | "euclidean" | "l2" => some .euclidean
  | "sqeuclidean" => some .sqEuclidean
  | "manhattan" | "l1" | "cityblock" | "taxicab" => some .manhattan
  | "chebyshev" | "linf" | "infinity" => some .chebyshev
  | "minkowski" | "lp" => some (.minkowski (p.getD 2))
  | "cosine" => some .cosine
  | "correlation" => some .correlation
  | "canberra" => some .canberra
  | "braycurtis" => some .brayCurtis
  | "haversine" => some .haversine
  | _ => none

/-- The metric that goes by a name, in upper or lower case, after its parameter has been checked. -/
def ofName (name : String) (p : Option Float) : Except Error Metric :=
  match ofLowerName? (name.map Char.toLower) p with
  | some m => m.validate.map fun _ => m
  | none => .error (.unsupportedMetric name)

end Metric

end NeighborSearch
