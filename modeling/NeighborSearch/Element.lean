import NeighborSearch.Precision

/-!
# Element types

Points may be given in any of four element types. Each is an `Element`: it widens to binary64 and
can be made from a binary64 number. Integers are made by rounding a half away from zero and keep to
the range of their type.
-/

namespace NeighborSearch

/-- The element types that points may come in. -/
inductive ElementType where
  | float32
  | float64
  | int32
  | int64
deriving DecidableEq, Repr

namespace ElementType

/-- The name by which documents and messages call an element type. -/
def name : ElementType → String
  | .float32 => "float32"
  | .float64 => "float64"
  | .int32 => "int32"
  | .int64 => "int64"

/-- Every element type. -/
def all : List ElementType := [.float32, .float64, .int32, .int64]

/-- The element type of a given name, which has to be spelt exactly. -/
def ofName? (name : String) : Option ElementType :=
  all.find? (·.name = name)

end ElementType

/-- Numbers that points are made of. -/
class Element (α : Type) where
  elementType : ElementType
  /-- The binary64 number that stands for an element. -/
  toFloat : α → Float
  /-- The element that a binary64 number is stored as. -/
  ofFloat : Float → α

export Element (elementType)

instance : Element Float32 where
  elementType := .float32
  toFloat := widen
  ofFloat := narrow

instance : Element Float where
  elementType := .float64
  toFloat := id
  ofFloat := id

instance : Element Int32 where
  elementType := .int32
  toFloat n := floatOfInt n.toInt
  ofFloat x := .ofInt (nearestInt Int32.minValue.toInt Int32.maxValue.toInt x)

instance : Element Int64 where
  elementType := .int64
  toFloat n := floatOfInt n.toInt
  ofFloat x := .ofInt (nearestInt Int64.minValue.toInt Int64.maxValue.toInt x)

end NeighborSearch
