/-
Reports: what was analysed, when, and what was found.

Main definitions:

* `ModuleDeps.Report` — a report;
* `ModuleDeps.OutputFormat` — the forms in which reports are written.
-/

import ModuleDeps.Analysis
import ModuleDeps.Text.LowerCase

set_option relaxedAutoImplicit false
set_option autoImplicit false

namespace ModuleDeps

/-- The analysis of one input. -/
structure Report where
  /-- The path of the input. -/
  input : String
  /-- The number of modules in the input. -/
  moduleCount : Nat
  /-- The time of the analysis, as it is written. -/
  analyzedAt : String
  /-- What was found. -/
  result : AnalysisResult

/-- A form in which reports are written. -/
inductive OutputFormat where
  /-- Text for people. -/
  | text
  /-- JSON. -/
  | json
  /-- A table of the records in CSV. -/
  | csv
  /-- A drawing of the graph in the DOT language. -/
  | dot
  deriving DecidableEq, Repr

namespace OutputFormat

/-- The word for a form. -/
def word : OutputFormat → String
  | .text => "text"
  | .json => "json"
  | .csv => "csv"
  | .dot => "dot"

/-- All forms. -/
def all : List OutputFormat := [.text, .json, .csv, .dot]

/-- The form that a word means, in this spelling only. -/
def ofWord? (w : String) : Option OutputFormat :=
  all.find? (·.word == w)

/-- The form that a word means, in small or capital letters. -/
def parse (w : String) : Except Fault OutputFormat :=
  match ofWord? (Text.toLower w) with
  | some format => .ok format
  | none => .error (.outputFormat w)

end OutputFormat

end ModuleDeps
