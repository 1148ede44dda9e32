import NeighborSearch.Json.Basic

/-!
# Writing documents

Documents are written without blanks. The exponent of a number has a sign, plus or minus. In
strings, quotes, backslashes and control characters are escaped.
-/

namespace NeighborSearch.Json

/-- The last hexadecimal digit of a number, in small letters. -/
def hexDigit (n : Nat) : Char :=
  Nat.digitChar (n % 16)

/-- A character inside a string. -/
def escape (c : Char) : List Char :=
  if c = '"' then ['\\', '"']
  else if c = '\\' then ['\\', '\\']
  else if c.toNat < 32 then ['\\', 'u', '0', '0', hexDigit (c.toNat / 16), hexDigit c.toNat]
  else [c]

/-- A string in quotes. A string that spells no text is written as `null`. -/
def quote : Option String → List Char
  | some s => '"' :: s.toList.flatMap escape ++ ['"']
  | none => "null".toList

mutual

/-- The characters of a document, without blanks. -/
def write : Json → List Char
  | .null => "null".toList
  | .boolean true => "true".toList
  | .boolean false => "false".toList
  | .number n => n.text ['+']
  | .string s => quote s
  | .array items => '[' :: writeItems items
  | .object members => '{' :: writeMembers members

/-- The items of an array and its closing bracket. -/
def writeItems : List Json → List Char
  | [] => [']']
  | [item] => write item ++ [']']
  | item :: rest => write item ++ ',' :: writeItems rest

/-- The members of an object and its closing brace. -/
def writeMembers : List (Option String × Json) → List Char
  | [] => ['\x7d']
  | [(name, value)] => quote name ++ ':' :: write value ++ ['\x7d']
  | (name, value) :: rest => quote name ++ ':' :: write value ++ ',' :: writeMembers rest

end

/-- The text of a document. -/
def render (document : Json) : String :=
  String.ofList document.write

end NeighborSearch.Json
