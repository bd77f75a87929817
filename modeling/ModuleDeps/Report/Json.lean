/-
Reports in JSON.

The members of every object stand in the order of their names, also where the order of a map is
known: two reports that differ only in such an order have the same text.  One report is written as
an object, any other number of reports as an array.

Main definitions:

* `ModuleDeps.Report.toJson` — the value of a report;
* `ModuleDeps.Report.jsonText` — the text of reports.
-/

import ModuleDeps.Decimal.Shortest
import ModuleDeps.Graph.Json
import ModuleDeps.Report.Basic

set_option relaxedAutoImplicit false
set_option autoImplicit false

namespace ModuleDeps

open Json (sortedObject)

/-- The object of an edge map, its members in the order of their names. -/
def EdgeMap.toSortedJson (edges : EdgeMap) : Json :=
  sortedObject (edges.entries.map fun e => (e.1, .ofStrings e.2))

/-- The value of a graph. -/
def Graph.toSortedJson (g : Graph) : Json :=
  sortedObject
    [("internal_edges", g.internal.toSortedJson), ("external_edges", g.external.toSortedJson),
      ("stdlib_edges", g.stdlib.toSortedJson), ("cycles", .array (g.cycles.map .ofStrings)),
      ("depth", g.depth.toJson), ("all_internal_nodes", .ofStrings g.internalNodes.names),
      ("all_external_nodes", .ofStrings g.externalNodes.names)]

/-- The value of a record. -/
def ImportRecord.toJson (record : ImportRecord) : Json :=
  sortedObject
    [("name", .string record.name), ("dependency_type", .string record.kind.text),
      ("import_type", .string record.form.text), ("source_module", .string record.source),
      ("import_statement", .string record.statement),
      ("resolved_path", (record.resolved.map Json.string).getD .null),
      ("imported_items", .ofStrings record.items)]

/-- The value of a figure: an average is written with the fewest digits that give it back, if it is
finite. -/
def Metric.toJson : Metric → Json
  | .count n => .ofNat n
  | .average x => if Decimal.isFinite x then .number (Decimal.shortestText x) else .null

/-- The value of the figures. -/
def Statistics.toJson (s : Statistics) : Json :=
  sortedObject (s.metrics.map fun m => (m.1, m.2.toJson))

/-- The value of a result. -/
def AnalysisResult.toJson (r : AnalysisResult) : Json :=
  sortedObject
    [("graph", r.graph.toSortedJson), ("records", .array (r.records.map ImportRecord.toJson)),
      ("statistics", r.statistics.toJson), ("errors", .ofStrings r.errors),
      ("warnings", .ofStrings r.warnings)]

namespace Report

/-- The value of a report. -/
def toJson (r : Report) : Json :=
  sortedObject
    [("input", .string r.input), ("module_count", .ofNat r.moduleCount),
      ("analyzed_at", .string r.analyzedAt), ("result", r.result.toJson)]

/-- The value of some reports: one report stands alone. -/
def jsonValue : List Report → Json
  | [r] => r.toJson
  | rs => .array (rs.map toJson)

/-- The text of some reports. -/
def jsonText (pretty : Bool) (rs : List Report) : String :=
  if pretty then (jsonValue rs).toPretty else (jsonValue rs).toCompact

end Report

end ModuleDeps
