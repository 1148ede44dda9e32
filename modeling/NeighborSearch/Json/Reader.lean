import NeighborSearch.Json.Basic

/-!
# Reading documents

A reader takes the characters of a document and gives its content together with the characters that
are left, or nothing if there is no document at the front. `parse` reads a document that fills a
whole text.
-/

namespace NeighborSearch.Json

/-- Whether a character may stand between the parts of a document. -/
def isBlank (c : Char) : Bool :=
  c == ' ' || c == '\t' || c == '\n' || c == '\r'

/-- The characters from the first one that is not blank. -/
def skipBlanks (cs : List Char) : List Char :=
  cs.dropWhile isBlank

/-- The characters after a given beginning. -/
def skipExact : List Char → List Char → Option (List Char)
  | [], cs => some cs
  | _, [] => none
  | e :: es, c :: cs => if e = c then skipExact es cs else none

/-! ## Numbers -/

/-- The digits at the front, of which there must be one. -/
def readDigits (cs : List Char) : Option (List Char × List Char) :=
  let digits := cs.takeWhile Char.isDigit
  if digits.isEmpty then none else some (digits, cs.dropWhile Char.isDigit)

/-- The digits before the point. Only zero itself starts with a zero. -/
def readWhole (cs : List Char) : Option (List Char × List Char) :=
  match cs with
  | '0' :: rest => some (['0'], rest)
  | _ => readDigits cs

/-- A point and the digits after it, if there is a point. -/
def readFraction (cs : List Char) : Option (List Char × List Char) :=
  match cs with
  | '.' :: rest => readDigits rest
  | _ => some ([], cs)

/-- The digits of an exponent after its sign. -/
def readExponentDigits (negative : Bool) (cs : List Char) : Option (Option Int × List Char) :=
  (readDigits cs).map fun (digits, rest) =>
    let size : Int := digitsValue digits
    (some (if negative then -size else size), rest)

/-- Reads an exponent if there is one. -/
def readExponent (cs : List Char) : Option (Option Int × List Char) :=
  match cs with
  | 'e' :: '-' :: rest | 'E' :: '-' :: rest => readExponentDigits true rest
  | 'e' :: '+' :: rest | 'E' :: '+' :: rest => readExponentDigits false rest
  | 'e' :: rest | 'E' :: rest => readExponentDigits false rest
  | _ => some (none, cs)

/-- Reads what follows the sign of a number. -/
def readUnsigned (negative : Bool) (cs : List Char) : Option (Numeral × List Char) := do
  let (whole, cs) ← readWhole cs
  let (fraction, cs) ← readFraction cs
  let (exponent, cs) ← readExponent cs
  return (⟨negative, whole, fraction, exponent⟩, cs)

/-- Reads a number. -/
def readNumeral (cs : List Char) : Option (Numeral × List Char) :=
  match cs with
  | '-' :: rest => readUnsigned true rest
  | _ => readUnsigned false cs

/-! ## Strings -/

/-- A part of a string: a character, or a surrogate that needs a partner. -/
inductive Piece where
  | char (c : Char)
  | surrogate (unit : Nat)

/-- The value of a hexadecimal digit, in small or capital letters. -/
def hexValue? (c : Char) : Option Nat :=
  if c.isDigit then some (c.toNat - 48)
  else if 'a' ≤ c ∧ c ≤ 'f' then some (c.toNat - 87)
  else if 'A' ≤ c ∧ c ≤ 'F' then some (c.toNat - 55)
  else none

/-- The piece that four hexadecimal digits stand for. -/
def unitPiece (unit : Nat) : Piece :=
  if 0xD800 ≤ unit ∧ unit < 0xE000 then .surrogate unit else .char (Char.ofNat unit)

/-- The character of a one-letter escape. -/
def escaped? : Char → Option Char
  | '"' => some '"'
  | '\\' => some '\\'
  | '/' => some '/'
  | 'b' => some '\x08'
  | 'f' => some '\x0c'
  | 'n' => some '\n'
  | 'r' => some '\r'
  | 't' => some '\t'
  | _ => none

/-- The pieces of a string up to its closing quote. -/
def readPieces : List Char → Option (List Piece × List Char)
  | [] => none
  | '"' :: rest => some ([], rest)
  | '\\' :: 'u' :: a :: b :: c :: d :: rest => do
    let unit := (((← hexValue? a) * 16 + (← hexValue? b)) * 16 + (← hexValue? c)) * 16
      + (← hexValue? d)
    let (pieces, left) ← readPieces rest
    return (unitPiece unit :: pieces, left)
  | '\\' :: c :: rest => do
    let e ← escaped? c
    let (pieces, left) ← readPieces rest
    return (.char e :: pieces, left)
  | c :: rest =>
    if c.toNat < 32 then none
    else (readPieces rest).map fun (pieces, left) => (.char c :: pieces, left)

/-- The text that pieces spell. A leading surrogate has to be followed by a trailing one. -/
def spell? : List Piece → Option (List Char)
  | [] => some []
  | .char c :: rest => (spell? rest).map (c :: ·)
  | .surrogate high :: .surrogate low :: rest =>
    if high < 0xDC00 ∧ 0xDC00 ≤ low then
      (spell? rest).map
        (Char.ofNat (0x10000 + (high - 0xD800) * 0x400 + (low - 0xDC00)) :: ·)
    else none
  | .surrogate _ :: _ => none

/-- A string, after its opening quote. -/
def readString (cs : List Char) : Option (Option String × List Char) :=
  (readPieces cs).map fun (pieces, rest) => ((spell? pieces).map String.ofList, rest)

/-! ## Documents -/

mutual

/-- The document at the front. The first argument bounds the nesting of calls. -/
def readValue : Nat → List Char → Option (Json × List Char)
  | 0, _ => none
  | fuel + 1, cs =>
    match skipBlanks cs with
    | 'n' :: rest => (skipExact "ull".toList rest).map (.null, ·)
    | 't' :: rest => (skipExact "rue".toList rest).map (.boolean true, ·)
    | 'f' :: rest => (skipExact "alse".toList rest).map (.boolean false, ·)
    | '"' :: rest => (readString rest).map fun (s, rest) => (.string s, rest)
    | '[' :: rest =>
      match skipBlanks rest with
      | ']' :: rest => some (.array [], rest)
      | rest => (readItems fuel rest).map fun (items, rest) => (.array items, rest)
    | '\x7b' :: rest =>
      match skipBlanks rest with
      | '\x7d' :: rest => some (.object [], rest)
      | rest => (readMembers fuel rest).map fun (members, rest) => (.object members, rest)
    | cs => (readNumeral cs).map fun (n, rest) => (.number n, rest)

/-- Reads the items of an array up to its closing bracket, at least one. -/
def readItems : Nat → List Char → Option (List Json × List Char)
  | 0, _ => none
  | fuel + 1, cs => do
    let (item, rest) ← readValue fuel cs
    match skipBlanks rest with
    | ',' :: rest =>
      let (items, rest) ← readItems fuel rest
      return (item :: items, rest)
    | ']' :: rest => return ([item], rest)
    | _ => none

/-- Reads the members of an object up to its closing brace, at least one. -/
def readMembers : Nat → List Char → Option (List (Option String × Json) × List Char)
  | 0, _ => none
  | fuel + 1, cs => do
    let '"' :: rest := skipBlanks cs | none
    let (name, rest) ← readString rest
    let ':' :: rest := skipBlanks rest | none
    let (value, rest) ← readValue fuel rest
    match skipBlanks rest with
    | ',' :: rest =>
      let (members, rest) ← readMembers fuel rest
      return ((name, value) :: members, rest)
    | '\x7d' :: rest => return ([(name, value)], rest)
    | _ => none

end

/-- The document that fills a text. -/
def parse (s : String) : Option Json := do
  let cs := s.toList
  let (document, rest) ← readValue (2 * cs.length + 1) cs
  if (skipBlanks rest).isEmpty then some document else none

end NeighborSearch.Json
