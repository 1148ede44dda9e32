import NeighborSearch.Decimal.Basic

/-!
# Documents

`Json` is the content of a JSON document. Numbers keep the form in which they are written, objects
keep their members in order and may repeat a name, and a string whose escapes do not spell Unicode
text (a surrogate stands without its partner) is `none`.
-/

namespace NeighborSearch

/-- The content of a document. -/
inductive Json where
  | null
  | boolean (value : Bool)
  | number (numeral : Numeral)
  | string (text : Option String)
  | array (items : List Json)
  | object (members : List (Option String × Json))

namespace Json

/-- A string without broken escapes. -/
def text (s : String) : Json := .string (some s)

/-- An integer. -/
def int (n : Int) : Json := .number (.ofInt n)

/-- A natural number. -/
def nat (n : Nat) : Json := .int n

/-- The items of a list, each in its form. -/
def list {α : Type} (form : α → Json) (xs : List α) : Json := .array (xs.map form)

/-- Named fields in a fixed order. -/
def record (members : List (String × Json)) : Json :=
  .object (members.map fun (name, value) => (some name, value))

/-- The form of a value, or `null`. -/
def optional {α : Type} (form : α → Json) : Option α → Json
  | some a => form a
  | none => .null

end Json

end NeighborSearch
