/-
Values of the settings language TOML.

Numbers with a fraction, dates and times have values of their own in that language; no setting takes
one, so they are kept as one value that says nothing more.  A table remembers how it came about,
because that decides whether it may be opened or extended again.

Main definitions:

* `ModuleDeps.Toml` — a value;
* `ModuleDeps.Toml.Origin` — how a table came about;
* `ModuleDeps.Toml.openTable`, `ModuleDeps.Toml.assign` — a table with a header, and a key with a
  value.
-/

set_option relaxedAutoImplicit false
set_option autoImplicit false

namespace ModuleDeps

/-- How a table came about. -/
inductive Toml.Origin where
  /-- On the way to a header; it may still get its own header. -/
  | onTheWay
  /-- By its own header. -/
  | header
  /-- By a dotted key. -/
  | dottedKey
  /-- Between braces; it is complete. -/
  | braces
  deriving DecidableEq, Repr

/-- A value. -/
inductive Toml where
  /-- A string. -/
  | string (s : String)
  /-- An integer. -/
  | integer (n : Int)
  /-- A truth value. -/
  | boolean (b : Bool)
  /-- An array. -/
  | array (items : List Toml)
  /-- A table, with its members in order. -/
  | table (origin : Toml.Origin) (members : List (String × Toml))
  /-- A number with a fraction, a date or a time. -/
  | other
  deriving Repr, Inhabited

namespace Toml

/-- The members of a table. -/
abbrev Members := List (String × Toml)

/-- Replaces the value of a name, or adds one, by a rule that may refuse. -/
def update (name : String) (rule : Option Toml → Option Toml) : Members → Option Members
  | [] => (rule none).map fun v => [(name, v)]
  | m :: ms =>
    if m.1 = name then (rule (some m.2)).map fun v => (name, v) :: ms
    else (update name rule ms).map (m :: ·)

/-- Opens the table of a header: it must be new, or only have been on the way to others. -/
def openTable : List String → Members → Option Members
  | [], ms => some ms
  | [name], ms => update name (fun
    | none => some (.table .header [])
    | some (.table .onTheWay inner) => some (.table .header inner)
    | some _ => none) ms
  | name :: path, ms => update name (fun
    | none => (openTable path []).map (.table .onTheWay)
    | some (.table .braces _) => none
    | some (.table origin inner) => (openTable path inner).map (.table origin)
    | some _ => none) ms

/-- Gives a dotted key a value: the key must be new, and the tables on its way must be open. -/
def assign (v : Toml) : List String → Members → Option Members
  | [], ms => some ms
  | [name], ms => update name (fun
    | none => some v
    | some _ => none) ms
  | name :: path, ms => update name (fun
    | none => (assign v path []).map (.table .dottedKey)
    | some (.table .dottedKey inner) => (assign v path inner).map (.table .dottedKey)
    | some (.table .onTheWay inner) => (assign v path inner).map (.table .onTheWay)
    | some _ => none) ms

/-- Gives a dotted key a value in the table of a header. -/
def assignUnder (header key : List String) (v : Toml) (ms : Members) : Option Members :=
  match header with
  | [] => assign v key ms
  | name :: path => update name (fun
    | some (.table origin inner) => (assignUnder path key v inner).map (.table origin)
    | _ => none) ms

end Toml

end ModuleDeps
