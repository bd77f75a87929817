/-
JSON values.

A value keeps what its text says: the members of an object stand in the order of the text, repeated
names included, and a number is its literal.

Main definitions:

* `ModuleDeps.Json` — a JSON value;
* `ModuleDeps.Json.ofNat`, `ModuleDeps.Json.toNat?` — natural numbers as values;
* `ModuleDeps.Json.member?` — the only member of an object with a name.
-/

set_option relaxedAutoImplicit false
set_option autoImplicit false

namespace ModuleDeps

/-- A JSON value. -/
inductive Json where
  /-- The value `null`. -/
  | null
  /-- A truth value. -/
  | bool (b : Bool)
  /-- A number, given by its literal. -/
  | number (literal : String)
  /-- A string. -/
  | string (s : String)
  /-- An array. -/
  | array (items : List Json)
  /-- An object: its members in the order of the text. -/
  | object (members : List (String × Json))
  deriving Repr, Inhabited

namespace Json

/-- A natural number as a value. -/
def ofNat (n : Nat) : Json :=
  .number (String.ofList (Nat.toDigits 10 n))

/-- The value of a decimal digit. -/
def digitValue (c : Char) : Nat :=
  c.toNat - '0'.toNat

/-- The number that a run of decimal digits denotes. -/
def ofDigits (cs : List Char) : Nat :=
  cs.foldl (fun n c => 10 * n + digitValue c) 0

/-- The natural number of a literal that is a run of digits. -/
def natOfLiteral? (literal : String) : Option Nat :=
  let cs := literal.toList
  if !cs.isEmpty && cs.all Char.isDigit then some (ofDigits cs) else none

/-- The natural number that a value is: its literal has no sign, no fraction and no exponent. -/
def toNat? : Json → Option Nat
  | .number literal => natOfLiteral? literal
  | _ => none

/-- The string that a value is. -/
def toString? : Json → Option String
  | .string s => some s
  | _ => none

/-- The items of a value that is an array. -/
def toItems? : Json → Option (List Json)
  | .array items => some items
  | _ => none

/-- The strings of a value that is an array of strings. -/
def toStrings? (v : Json) : Option (List String) :=
  v.toItems?.bind fun items => items.mapM toString?

/-- The member of an object with the given name: `none` if the name is repeated, `some none` if
there is no such member. -/
def member? (members : List (String × Json)) (name : String) : Option (Option Json) :=
  match members.filter fun m => m.1 == name with
  | [] => some none
  | [m] => some (some m.2)
  | _ => none

end Json

end ModuleDeps
