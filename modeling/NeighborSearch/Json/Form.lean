import NeighborSearch.Estimator
import NeighborSearch.Json.Reader
import NeighborSearch.Json.Writer

/-!
# Stored forms

How the values of this library are kept in documents. Floating-point numbers are written with the
fewest digits that read back; NaN and the infinities are written as `null`, which is not read as a
number. A structure is written as an object and read from an object, whose other members are
ignored, or from an array of its fields in order. Reading checks types and ranges only, so a matrix
may be read whose data do not fit its shape.
-/

namespace NeighborSearch

namespace Json

/-! ## Numbers -/

/-- A binary64 number in its shortest digits. Infinities and NaN become `null`. -/
def float (x : Float) : Json :=
  optional .number (Decimal.interchange.float? x)

/-- A binary32 number in its shortest digits. Infinities and NaN become `null`. -/
def float32 (x : Float32) : Json :=
  optional .number (Decimal.interchange32.float32? x)

/-- The integer between two bounds that a document holds. -/
def int? (low high : Int) : Json → Option Int
  | .number n => n.toInt?.filter fun value => low ≤ value && value ≤ high
  | _ => none

/-- The natural number of 64 binary digits that a document holds. -/
def nat? (document : Json) : Option Nat :=
  (document.int? 0 0xFFFFFFFFFFFFFFFF).map Int.toNat

/-- The binary64 number that a document holds; numbers beyond its range are refused. -/
def float? : Json → Option Float
  | .number n => if n.toFloat.isFinite then some n.toFloat else none
  | _ => none

/-- The binary32 number nearest to a numeral. Negative integers of 64 binary digits beyond the range
of 64-bit integers are rounded to binary64 first; every other numeral is rounded once. -/
def nearest32 (n : Numeral) : Float32 :=
  match n.toInt? with
  | some value =>
    if -0x10000000000000000 < value && value < -0x8000000000000000 then narrow n.toFloat
    else n.toFloat32
  | none => n.toFloat32

/-- The binary32 number that a document holds; numbers beyond its range are refused. -/
def float32? : Json → Option Float32
  | .number n => if (nearest32 n).isFinite then some (nearest32 n) else none
  | _ => none

/-! ## Compound documents -/

/-- The string that a document is, if none of its escapes is broken. -/
def text? : Json → Option String
  | .string s => s
  | _ => none

/-- The items of an array, each of which must have the form that `read` takes. -/
def list? {α : Type} (read : Json → Option α) : Json → Option (List α)
  | .array items => items.mapM read
  | _ => none

/-- The members of an object by their names, all of which must be text. -/
def members? : Json → Option (List (String × Json))
  | .object members => members.mapM fun (name, value) => name.map (·, value)
  | _ => none

/-- The member of a given name. There may be none, but not more than one. -/
def member? (members : List (String × Json)) (name : String) : Option (Option Json) :=
  match members.filter fun m => m.1 == name with
  | [] => some none
  | [m] => some (some m.2)
  | _ => none

/-- The fields of a structure in the order of their names, given as an object or as an array. -/
def fields? (names : List String) : Json → Option (List (Option Json))
  | .array items =>
    if items.length ≤ names.length then
      some ((List.range names.length).map fun i => items[i]?)
    else none
  | document => do
    let members ← document.members?
    names.mapM (member? members)

/-- The value of an enumeration, given by its name or as an object with that name and `null`. -/
def choice? {α : Type} (choices : List α) (name : α → String) : Json → Option α
  | .string (some s) => choices.find? fun a => name a = s
  | .object [(some s, .null)] => choices.find? fun a => name a = s
  | _ => none

/-- The number of nested documents that can be set aside. -/
def nestingLimit : Nat := 127

mutual

/-- Whether a document can be set aside: its numbers are in range, its strings are text, and it
nests no deeper than `depth`. -/
def canHold (depth : Nat) : Json → Bool
  | .number n => n.toFloat.isFinite
  | .string s => s.isSome
  | .array items => decide (0 < depth) && canHoldItems (depth - 1) items
  | .object members => decide (0 < depth) && canHoldMembers (depth - 1) members
  | _ => true

/-- Whether every item can be held at the depth. -/
def canHoldItems (depth : Nat) : List Json → Bool
  | [] => true
  | item :: rest => canHold depth item && canHoldItems depth rest

/-- Whether every member has a proper name and can be held at the depth. -/
def canHoldMembers (depth : Nat) : List (Option String × Json) → Bool
  | [] => true
  | (name, value) :: rest => name.isSome && canHold depth value && canHoldMembers depth rest

end

end Json

open Json

/-! ## Metrics and configurations -/

namespace Metric

/-- A metric is an object with its name and, if it has one, its exponent. -/
def toJson (m : Metric) : Json :=
  record (("name", .text m.name) :: (m.exponent?.map fun p => ("p", Json.float p)).toList)

/-- The metrics that a name alone determines. -/
def withoutExponent : List Metric :=
  [.euclidean, .sqEuclidean, .manhattan, .chebyshev, .cosine, .correlation, .canberra,
    .brayCurtis, .haversine]

/-- The metric of a canonical name; `exponent` is where a Minkowski metric finds its exponent. -/
def ofCanonical? (name : String) (exponent : Option Json) : Option Metric :=
  if name = "minkowski" then
    exponent.bind fun p => p.float?.map Metric.minkowski
  else withoutExponent.find? fun m => m.name = name

/-- Reads a metric at a given depth of a document. Its parts are set aside until the name is known,
so all of them must allow it. In an array the name comes first, and only a Minkowski metric has
another item. -/
def ofJsonAt? (depth : Nat) (document : Json) : Option Metric := do
  if !document.canHold (nestingLimit - depth) then none
  else
    match document with
    | .array [name] => ofCanonical? (← name.text?) none
    | .array [name, p] =>
      if name.text? = some "minkowski" then ofCanonical? "minkowski" (some p) else none
    | .object _ =>
      let members ← document.members?
      let name ← (← member? members "name").bind text?
      if name = "minkowski" then ofCanonical? name (← member? members "p")
      else ofCanonical? name none
    | _ => none

/-- Reads a metric from a document of its own. -/
def ofJson? (document : Json) : Option Metric :=
  ofJsonAt? 0 document

end Metric

namespace Config

/-- The form of a configuration. -/
def toJson (config : Config) : Json :=
  record [("n_neighbors", .nat config.neighbors), ("metric", config.metric.toJson)]

/-- Reads a configuration. A field that is missing takes its default. -/
def ofJson? (document : Json) : Option Config := do
  let standard : Config := {}
  match ← document.fields? ["n_neighbors", "metric"] with
  | [neighbors, metric] =>
    let neighbors ← neighbors.elim (some standard.neighbors) nat?
    let metric ← metric.elim (some standard.metric) (Metric.ofJsonAt? 1)
    return ⟨neighbors, metric⟩
  | _ => none

end Config

/-! ## Names -/

/-- A mode is kept by its name. -/
def GraphMode.toJson (mode : GraphMode) : Json := .text mode.name

/-- Reads a mode by its name. -/
def GraphMode.ofJson? : Json → Option GraphMode := choice? GraphMode.all GraphMode.name

/-- The choice whether a point is its own neighbor is kept by its name. -/
def SelfMatch.toJson (choice : SelfMatch) : Json := .text choice.name

/-- Reads the choice by its name. -/
def SelfMatch.ofJson? : Json → Option SelfMatch := choice? SelfMatch.all SelfMatch.name

/-- An element type is kept by its name. -/
def ElementType.toJson (elementType : ElementType) : Json := .text elementType.name

/-- Reads an element type by its name. -/
def ElementType.ofJson? : Json → Option ElementType := choice? ElementType.all ElementType.name

/-! ## Matrices -/

/-- Elements that can be kept in documents. -/
class StoredElement (α : Type) where
  toJson : α → Json
  ofJson? : Json → Option α

instance : StoredElement Float32 := ⟨Json.float32, Json.float32?⟩

instance : StoredElement Float := ⟨Json.float, Json.float?⟩

instance : StoredElement Int32 where
  toJson n := .int n.toInt
  ofJson? document := (document.int? Int32.minValue.toInt Int32.maxValue.toInt).map Int32.ofInt

instance : StoredElement Int64 where
  toJson n := .int n.toInt
  ofJson? document := (document.int? Int64.minValue.toInt Int64.maxValue.toInt).map Int64.ofInt

instance : StoredElement Nat := ⟨Json.nat, Json.nat?⟩

/-- The elements of an array in order. -/
def arrayToJson {α : Type} [StoredElement α] (xs : Array α) : Json :=
  list StoredElement.toJson xs.toList

/-- Reads an array if each of its elements can be read. -/
def arrayOfJson? {α : Type} [StoredElement α] (document : Json) : Option (Array α) :=
  (document.list? StoredElement.ofJson?).map List.toArray

namespace Matrix

variable {α : Type} [StoredElement α]

/-- A matrix is an object with its elements and its shape. -/
def toJson (x : Matrix α) : Json :=
  record [("data", arrayToJson x.data), ("rows", .nat x.rows), ("cols", .nat x.columns)]

/-- Reads a matrix, all fields of which must be there. -/
def ofJson? (document : Json) : Option (Matrix α) := do
  match ← document.fields? ["data", "rows", "cols"] with
  | [some data, some rows, some columns] =>
    let data ← arrayOfJson? data
    return ⟨← rows.nat?, ← columns.nat?, data⟩
  | _ => none

end Matrix

namespace SparseMatrix

/-- A sparse matrix is an object with its shape and its three arrays. -/
def toJson (x : SparseMatrix) : Json :=
  record [("n_rows", .nat x.rows), ("n_cols", .nat x.columns), ("indptr", arrayToJson x.offsets),
    ("indices", arrayToJson x.indices), ("data", arrayToJson x.values)]

/-- Reads a sparse matrix, all fields of which must be there. -/
def ofJson? (document : Json) : Option SparseMatrix := do
  match ← document.fields? ["n_rows", "n_cols", "indptr", "indices", "data"] with
  | [some rows, some columns, some offsets, some indices, some values] =>
    return ⟨← rows.nat?, ← columns.nat?, ← arrayOfJson? offsets, ← arrayOfJson? indices,
      ← arrayOfJson? values⟩
  | _ => none

end SparseMatrix

/-! ## Events -/

namespace Event

/-- What an event tells beside its message. -/
def fields : Event → List (String × Json)
  | .fitted samples features elementType metric =>
    [("n_samples", .nat samples), ("n_features", .nat features),
      ("dtype", elementType.toJson), ("metric", .text metric.describe)]
  | .query queries k withDistances =>
    [("n_queries", .nat queries), ("k", .nat k), ("return_distance", .boolean withDistances)]
  | .selfQuery queries k selfMatch withDistances =>
    [("n_queries", .nat queries), ("k", .nat k),
      ("self_match", .text (match selfMatch with | .include => "Include" | .exclude => "Exclude")),
      ("return_distance", .boolean withDistances)]
  | .assembly entries k columns mode =>
    [("n_entries", .nat entries), ("k", .nat k), ("n_cols", .nat columns),
      ("mode", mode.toJson)]

/-- An event is one flat object. -/
def toJson (event : Event) : Json :=
  record (("level", .text event.level) :: ("message", .text event.message) :: event.fields)

end Event

end NeighborSearch
