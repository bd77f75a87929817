/-
Reports in every form.

Main definitions:

* `ModuleDeps.Report.csvText`, `ModuleDeps.Report.dotText` — reports as a table and as drawings;
* `ModuleDeps.Layout` — how reports for people are written;
* `ModuleDeps.Layout.text`, `ModuleDeps.Layout.format` — reports for people, and in any form.
-/

import ModuleDeps.Csv
import ModuleDeps.Graph.Dot
import ModuleDeps.Report.Json
import ModuleDeps.Report.Text

set_option relaxedAutoImplicit false
set_option autoImplicit false

namespace ModuleDeps

namespace Report

/-! ### Tables -/

/-- The names of the columns. -/
def csvHeader : List String :=
  ["input", "source_module", "name", "target", "dependency_type", "import_type", "imported_items",
    "import_statement"]

/-- The row of a record. -/
def csvRow (input : String) (record : ImportRecord) : List String :=
  [input, record.source, record.name, record.target, record.kind.text, record.form.text,
    ";".intercalate record.items, record.statement]

/-- The rows of some reports, one for each record. -/
def csvRows (rs : List Report) : List (List String) :=
  rs.flatMap fun r => r.result.records.map (csvRow r.input)

/-- The table of some reports. -/
def csvText (rs : List Report) : String :=
  Csv.table (csvHeader :: csvRows rs)

/-! ### Drawings -/

/-- The drawings of some reports. -/
def dotText (rs : List Report) : String :=
  "\n".intercalate (rs.map fun r => "// " ++ r.input ++ "\n" ++ r.result.graph.toDot)

end Report

/-! ### Layouts -/

/-- How reports for people are written. -/
structure Layout where
  /-- With colours? -/
  colors : Bool
  /-- With all details? -/
  verbose : Bool
  /-- In one line each? -/
  quiet : Bool
  /-- The greatest number of packages that are listed. -/
  externalLimit : Nat
  deriving DecidableEq, Repr

namespace Layout

/-- Reports for people. -/
def text (layout : Layout) (rs : List Report) : String :=
  if layout.quiet then String.join (rs.map (Report.line layout.colors))
  else "\n".intercalate
    (rs.map (Report.text layout.colors layout.verbose layout.externalLimit))

/-- Reports in the given form. -/
def format (layout : Layout) (rs : List Report) : OutputFormat → String
  | .text => layout.text rs
  | .json => Report.jsonText true rs
  | .csv => Report.csvText rs
  | .dot => Report.dotText rs

end Layout

end ModuleDeps
