/-
Writing JSON values.

A value has a compact text, without blanks, and a pretty text, with one item or member on a line and
two blanks more for each level.  In strings the quote, the backslash and the characters below
U+0020 are escaped; every other character stands for itself.

Main definitions:

* `ModuleDeps.Json.quoted` — a string in quotes;
* `ModuleDeps.Json.compact`, `ModuleDeps.Json.pretty` — the two texts of a value;
* `ModuleDeps.Json.sorted` — members in the order of their names.
-/

import ModuleDeps.Json.Basic

set_option relaxedAutoImplicit false
set_option autoImplicit false

namespace ModuleDeps.Json

/-! ### Strings -/

/-- The hexadecimal digit for a number below sixteen. -/
def hexDigit (n : Nat) : Char :=
  if n < 10 then Char.ofNat ('0'.toNat + n) else Char.ofNat ('a'.toNat + (n - 10))

/-- What stands for a character inside quotes. -/
def escapeChar (c : Char) : List Char :=
  if c = '"' then ['\\', '"']
  else if c = '\\' then ['\\', '\\']
  else if c.toNat = 0x8 then ['\\', 'b']
  else if c.toNat = 0xC then ['\\', 'f']
  else if c = '\n' then ['\\', 'n']
  else if c = '\r' then ['\\', 'r']
  else if c = '\t' then ['\\', 't']
  else if c.toNat < 0x20 then
    ['\\', 'u', '0', '0', hexDigit (c.toNat / 16), hexDigit (c.toNat % 16)]
  else [c]

/-- A string in quotes. -/
def quoted (s : String) : List Char :=
  '"' :: s.toList.flatMap escapeChar ++ ['"']

/-! ### Values -/

/-- Texts with commas between them. -/
def commas (texts : List (List Char)) : List Char :=
  [','].intercalate texts

/-- The text of a value that is neither an array nor an object. -/
def scalar : Json → List Char
  | .null => "null".toList
  | .bool true => "true".toList
  | .bool false => "false".toList
  | .number literal => literal.toList
  | .string s => quoted s
  | .array _ => []
  | .object _ => []

mutual

/-- The compact text of a value. -/
def compact : Json → List Char
  | .array items => '[' :: commas (compactItems items) ++ [']']
  | .object members => '\x7b' :: commas (compactMembers members) ++ ['\x7d']
  | v => scalar v

/-- The compact texts of the items of an array. -/
def compactItems : List Json → List (List Char)
  | [] => []
  | v :: items => compact v :: compactItems items

/-- The compact texts of the members of an object. -/
def compactMembers : List (String × Json) → List (List Char)
  | [] => []
  | (name, v) :: members => (quoted name ++ ':' :: compact v) :: compactMembers members

end

/-- The line break in front of an item at the given level. -/
def lineBreak (level : Nat) : List Char :=
  '\n' :: List.replicate (2 * level) ' '

/-- Brackets around texts, one on a line; without texts nothing stands between the brackets. -/
def block (level : Nat) (opening closing : Char) (texts : List (List Char)) : List Char :=
  if texts.isEmpty then [opening, closing]
  else opening :: commas (texts.map (lineBreak (level + 1) ++ ·)) ++ lineBreak level ++ [closing]

mutual

/-- The pretty text of a value at the given level. -/
def prettyAt (level : Nat) : Json → List Char
  | .array items => block level '[' ']' (prettyItems (level + 1) items)
  | .object members => block level '\x7b' '\x7d' (prettyMembers (level + 1) members)
  | v => scalar v

/-- The pretty texts of the items of an array at the given level. -/
def prettyItems (level : Nat) : List Json → List (List Char)
  | [] => []
  | v :: items => prettyAt level v :: prettyItems level items

/-- The pretty texts of the members of an object at the given level. -/
def prettyMembers (level : Nat) : List (String × Json) → List (List Char)
  | [] => []
  | (name, v) :: members =>
    (quoted name ++ ':' :: ' ' :: prettyAt level v) :: prettyMembers level members

end

/-- The compact text of a value. -/
def toCompact (v : Json) : String :=
  String.ofList (compact v)

/-- The pretty text of a value. -/
def toPretty (v : Json) : String :=
  String.ofList (prettyAt 0 v)

/-! ### Order of members -/

/-- Members in the order of their names. -/
def sorted (members : List (String × Json)) : List (String × Json) :=
  members.mergeSort fun a b => decide (a.1 ≤ b.1)

/-- An object whose members are in the order of their names. -/
def sortedObject (members : List (String × Json)) : Json :=
  .object (sorted members)

end ModuleDeps.Json
