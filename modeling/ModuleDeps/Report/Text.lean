/-
Reports for people.

A report is either one line or a text of several sections; sections that would be empty are left
out.

Main definitions:

* `ModuleDeps.Report.lineSpans` — a report in one line;
* `ModuleDeps.Report.textSpans` — a report in full;
* `ModuleDeps.Report.line`, `ModuleDeps.Report.text` — their texts, with or without colours.
-/

import ModuleDeps.Report.Basic
import ModuleDeps.Report.Span

set_option relaxedAutoImplicit false
set_option autoImplicit false

namespace ModuleDeps.Report

open ModuleDeps.Span (plain styled)

/-! ### Words -/

/-- The ending of a noun behind a count. -/
def plural (n : Nat) : String :=
  if n = 1 then "" else "s"

/-- The heading of a section. -/
def heading (title : String) : List Span :=
  [plain "\n", styled .boldBlue title, plain "\n"]

/-! ### One line -/

/-- A report in one line. -/
def lineSpans (r : Report) : List Span :=
  let s := r.result.statistics
  let errors := r.result.errors.length
  plain s!"{r.input}: {s.total} dependencies ({s.internal} internal, {s.external} external, " ::
    plain s!"{s.stdlib} stdlib), {s.cycles} circular" ::
    (if r.result.hasErrors then
      [plain ", ", styled .boldRed s!"{errors} error{plural errors}"] else []) ++
    [plain "\n"]

/-! ### Sections -/

/-- The title of a report and the number of its modules. -/
def titleSpans (r : Report) : List Span :=
  [styled .boldBlue ("Dependency Analysis: " ++ r.input), plain "\n",
    plain s!"Modules analysed: {r.moduleCount}\n"]

/-- The figures of a report. -/
def statisticsSpans (s : Statistics) : List Span :=
  let depth := Decimal.fixed 1 s.avgDepth
  heading "Dependency Statistics" ++
    [plain s!"  Total dependencies: {s.total}\n",
      plain s!"  Internal dependencies: {s.internal}\n",
      plain s!"  External dependencies: {s.external}\n",
      plain s!"  Standard library dependencies: {s.stdlib}\n"] ++
    (if 0 < s.uniqueExternal then
      [plain s!"  Unique external packages: {s.uniqueExternal}\n"] else []) ++
    (if 0 < s.maxDepth then
      [plain s!"  Maximum dependency depth: {s.maxDepth}\n",
        plain s!"  Average dependency depth: {depth}\n"] else []) ++
    (if 0 < s.maxFanOut then
      [plain s!"  Maximum fan-out: {s.maxFanOut} (dependencies from one module)\n"] else []) ++
    (if 0 < s.maxFanIn then
      [plain s!"  Maximum fan-in: {s.maxFanIn} (modules depending on one module)\n"] else [])

/-- The groups of modules that import each other. -/
def groupSpans (g : Graph) : List Span :=
  let groups := g.cycleGroups
  plain s!"Strongly connected groups: {groups.length}\n" ::
    groups.map fun group => plain ("  \x7b" ++ ", ".intercalate group ++ "\x7d\n")

/-- The cycles of a graph, with their groups if the report is verbose. -/
def cycleSpans (verbose : Bool) (g : Graph) : List Span :=
  let count := g.cycles.length
  if g.cycles.isEmpty then []
  else heading "Circular Dependencies Detected" ++
    plain s!"Found {count} circular dependency chain{plural count}:\n" ::
    (g.cycles.zipIdx.flatMap fun (cycle, i) =>
      [plain s!"  {i + 1}. ", styled .red (" -> ".intercalate cycle), plain "\n"]) ++
    (if verbose then groupSpans g else [])

/-- The packages that most modules import, up to a limit. -/
def externalSpans (limit : Nat) (g : Graph) : List Span :=
  let usage := g.externalUsage
  if usage.isEmpty || limit == 0 then []
  else heading "Most Common External Dependencies" ++
    ((usage.take limit).flatMap fun (name, count) =>
      [plain "  - ", styled .cyan name, plain s!" (used by {count} module{plural count})\n"]) ++
    (if limit < usage.length then
      [plain s!"  - ...and {usage.length - limit} more\n"] else [])

/-- The greatest number of modules in a list of modules. -/
def topModules : Nat := 5

/-- The greatest number of imports that are listed under a module. -/
def importsPerModule : Nat := 3

/-- A module with the internal modules that it imports. -/
def fanOutSpans (g : Graph) (name : String) (count : Nat) : List Span :=
  let targets := g.internalTargets name
  let ending := if count = 1 then "y" else "ies"
  [plain "  - ", styled .green name, plain s!" -> {count} dependenc{ending}\n"] ++
    (targets.take importsPerModule).map (fun target => plain s!"      {target}\n") ++
    (if importsPerModule < targets.length then
      [plain s!"      ...and {targets.length - importsPerModule} more\n"] else [])

/-- The internal modules that most modules import. -/
def fanInSpans (g : Graph) : List Span :=
  ((g.fanIn.entries.mergeSort Graph.countOrder).take topModules).flatMap fun (name, count) =>
    [plain "  - ", styled .green name, plain s!" (imported by {count} module{plural count})\n"]

/-- The modules that import and are imported most. -/
def structureSpans (g : Graph) : List Span :=
  let byFanOut := g.byFanOut.filter fun e => 0 < e.2
  if byFanOut.isEmpty then []
  else heading "Modules With Most Dependencies" ++
    ((byFanOut.take topModules).flatMap fun (name, count) => fanOutSpans g name count) ++
    heading "Most Depended-upon Modules" ++ fanInSpans g

/-- All figures by name. -/
def metricSpans (s : Statistics) : List Span :=
  heading "All Metrics" ++ s.metrics.map fun (name, metric) => plain s!"  {name}: {metric.text}\n"

/-- Marked lines under a heading; nothing if there are none. -/
def markedSpans (title : String) (style : Style) (mark : String) (lines : List String) :
    List Span :=
  if lines.isEmpty then []
  else heading title ++
    lines.flatMap fun line => [plain "  [", styled style mark, plain s!"] {line}\n"]

/-- A report in full. -/
def textSpans (verbose : Bool) (limit : Nat) (r : Report) : List Span :=
  let g := r.result.graph
  titleSpans r ++ statisticsSpans r.result.statistics ++ cycleSpans verbose g ++
    externalSpans limit g ++ structureSpans g ++
    (if verbose then
      metricSpans r.result.statistics ++
        markedSpans "Warnings" .yellow "WARNING" r.result.warnings else []) ++
    markedSpans "Dependency Analysis Errors" .boldRed "ERROR" r.result.errors

/-! ### Texts -/

/-- The text of a report in one line. -/
def line (colors : Bool) (r : Report) : String :=
  Span.render colors r.lineSpans

/-- The text of a report in full. -/
def text (colors verbose : Bool) (limit : Nat) (r : Report) : String :=
  Span.render colors (r.textSpans verbose limit)

end ModuleDeps.Report
