/-
Figures about an analysis.

Main definitions:

* `ModuleDeps.Statistics` — the figures;
* `ModuleDeps.Statistics.ofGraph` — the figures of a graph and its records;
* `ModuleDeps.Metric`, `ModuleDeps.Statistics.metrics` — the figures one by one, with their names.
-/

import ModuleDeps.Decimal.Fixed
import ModuleDeps.Graph.Basic

set_option relaxedAutoImplicit false
set_option autoImplicit false

namespace ModuleDeps

/-- Figures about an analysis. -/
structure Statistics where
  /-- The number of records. -/
  total : Nat
  /-- The number of internal records. -/
  internal : Nat
  /-- The number of external records. -/
  external : Nat
  /-- The number of records of the standard library. -/
  stdlib : Nat
  /-- The number of internal modules that are imported. -/
  uniqueInternal : Nat
  /-- The number of packages from elsewhere that are imported. -/
  uniqueExternal : Nat
  /-- The number of cycles. -/
  cycles : Nat
  /-- The greatest depth. -/
  maxDepth : Nat
  /-- The average depth. -/
  avgDepth : Float
  /-- The greatest number of internal modules that one module imports. -/
  maxFanOut : Nat
  /-- The average of that number over the modules that import one. -/
  avgFanOut : Float
  /-- The greatest number of imports of one internal module. -/
  maxFanIn : Nat
  /-- The average of that number over the modules that are imported. -/
  avgFanIn : Float

/-- One figure. -/
inductive Metric where
  /-- A count. -/
  | count (n : Nat)
  /-- An average. -/
  | average (x : Float)

/-- The text of a figure: an average has two places. -/
def Metric.text : Metric → String
  | .count n => toString n
  | .average x => Decimal.fixed 2 x

namespace Statistics

/-- The greatest of some numbers, zero if there is none. -/
def greatest (ns : List Nat) : Nat :=
  ns.foldl max 0

/-- The average of some numbers, zero if there is none. -/
def mean (ns : List Nat) : Float :=
  if ns.isEmpty then 0.0 else Float.ofNat (ns.foldl (· + ·) 0) / Float.ofNat ns.length

/-- The number of records of a kind. -/
def countKind (records : List ImportRecord) (kind : DependencyKind) : Nat :=
  records.countP (·.kind == kind)

/-- The numbers of internal modules that the modules import, without the zeros. -/
def fanOuts (g : Graph) : List Nat :=
  (g.internal.entries.map (·.2.length)).filter (0 < ·)

/-- The figures of a graph and its records. -/
def ofGraph (records : List ImportRecord) (g : Graph) : Statistics where
  total := records.length
  internal := countKind records .internal
  external := countKind records .external
  stdlib := countKind records .stdlib
  uniqueInternal := g.internalNodes.size
  uniqueExternal := g.externalNodes.size
  cycles := g.cycles.length
  maxDepth := greatest g.depth.values
  avgDepth := mean g.depth.values
  maxFanOut := greatest (fanOuts g)
  avgFanOut := mean (fanOuts g)
  maxFanIn := greatest g.fanIn.values
  avgFanIn := mean g.fanIn.values

/-- The figures one by one, with their names. -/
def metrics (s : Statistics) : List (String × Metric) :=
  [("total_dependencies", .count s.total),
    ("internal_dependencies", .count s.internal),
    ("external_dependencies", .count s.external),
    ("stdlib_dependencies", .count s.stdlib),
    ("unique_internal_modules", .count s.uniqueInternal),
    ("unique_external_modules", .count s.uniqueExternal),
    ("circular_dependency_count", .count s.cycles),
    ("max_dependency_depth", .count s.maxDepth),
    ("avg_dependency_depth", .average s.avgDepth),
    ("max_fan_out", .count s.maxFanOut),
    ("avg_fan_out", .average s.avgFanOut),
    ("max_fan_in", .count s.maxFanIn),
    ("avg_fan_in", .average s.avgFanIn)]

/-- The figure with a name. -/
def metric? (s : Statistics) (name : String) : Option Metric :=
  (s.metrics.find? (·.1 == name)).map (·.2)

end Statistics

end ModuleDeps
