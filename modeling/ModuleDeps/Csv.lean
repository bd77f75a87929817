/-
Tables in CSV.

The fields of a row are joined by commas and a row ends with a line feed.  A field that holds a
comma, a quote or a line break is written in quotes, with each quote in it doubled.

Main definitions:

* `ModuleDeps.Csv.field`, `ModuleDeps.Csv.row`, `ModuleDeps.Csv.table` — the texts of a field, a row
  and a table.
-/

set_option relaxedAutoImplicit false
set_option autoImplicit false

namespace ModuleDeps.Csv

/-- Must a field with this character be quoted? -/
def isSpecial (c : Char) : Bool :=
  c == ',' || c == '"' || c == '\r' || c == '\n'

/-- What stands for a character inside quotes. -/
def escapeChar (c : Char) : List Char :=
  if c = '"' then ['"', '"'] else [c]

/-- The text of a field. -/
def field (text : String) : List Char :=
  let cs := text.toList
  if cs.any isSpecial then '"' :: cs.flatMap escapeChar ++ ['"'] else cs

/-- The text of a row. -/
def row (fields : List String) : List Char :=
  [','].intercalate (fields.map field) ++ ['\n']

/-- The text of a table. -/
def table (rows : List (List String)) : String :=
  String.ofList (rows.flatMap row)

end ModuleDeps.Csv
