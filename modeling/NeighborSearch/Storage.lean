import NeighborSearch.Decimal.Style
import NeighborSearch.Matrix

/-!
# Storing points in binary32

Points of any element type are stored in binary32. Binary32 points are taken as they are. Any other
type needs leave to be converted, and its values must lie in the range of binary32; NaN has no size
and always passes.
-/

namespace NeighborSearch

/-- The largest finite binary32 number. -/
def float32Max : Float := Float.ofBits 0x47EFFFFFE0000000

/-- Whether a number lies beyond the finite binary32 numbers. -/
def outsideFloat32 (v : Float) : Bool :=
  float32Max < v || v < -float32Max

namespace Matrix

variable {α : Type} [Element α]

/-- Elements of this type could not be stored. -/
def conversionError (source : ElementType) (reason : String) : Error :=
  .dataConversion source.name ElementType.float32.name reason

/-- The refusal to convert without leave. -/
def disabledReason : String := "input requires conversion but convert_dtype is disabled"

/-- The refusal to store a number that is too large. -/
def rangeReason (v : Float) : String :=
  "value " ++ Decimal.scientific.describe v
    ++ " is outside the representable range and would lose information"

/-- The matrix with every element rounded to binary32. -/
def narrowed (x : Matrix α) : Matrix Float32 :=
  x.map fun v => narrow (Element.toFloat v)

/-- The points of a matrix as they are stored; `allowed` gives leave to convert. -/
def toFloat32 (x : Matrix α) (allowed : Bool) : Except Error (Matrix Float32) :=
  if elementType α = .float32 then .ok x.narrowed
  else if !allowed then .error (conversionError (elementType α) disabledReason)
  else
    match x.data.toList.map Element.toFloat |>.find? outsideFloat32 with
    | some v => .error (conversionError (elementType α) (rangeReason v))
    | none => .ok x.narrowed

variable (α) in
/-- Stored points in another element type. -/
def ofFloat32 (x : Matrix Float32) : Matrix α :=
  x.map fun v => Element.ofFloat (widen v)

end Matrix

end NeighborSearch
