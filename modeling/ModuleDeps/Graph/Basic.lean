/-
The dependency graph of a project.

A graph has an edge map for each kind of dependency, the modules that were named as targets, and,
once they have been computed, the cycles and depths of its internal edges.

Main definitions:

* `ModuleDeps.Graph` — a dependency graph;
* `ModuleDeps.Graph.addEdge` — one more edge;
* `ModuleDeps.Graph.compute` — the graph with its cycles and depths;
* `ModuleDeps.Graph.fanIn`, `ModuleDeps.Graph.byFanOut`, `ModuleDeps.Graph.externalUsage`,
  `ModuleDeps.Graph.cycleGroups` — views of a graph.
-/

import ModuleDeps.Edges.Components
import ModuleDeps.Edges.Cycles
import ModuleDeps.Edges.Depths
import ModuleDeps.Edges.Numbered
import ModuleDeps.Import.Record

set_option relaxedAutoImplicit false
set_option autoImplicit false

namespace ModuleDeps

/-- The dependency graph of a project. -/
structure Graph where
  /-- The project's modules that each module imports. -/
  internal : EdgeMap
  /-- The packages from elsewhere that each module imports. -/
  external : EdgeMap
  /-- The modules of the standard library that each module imports. -/
  stdlib : EdgeMap
  /-- The cycles of the internal edges, with the same name at both ends. -/
  cycles : List (List String)
  /-- The depths of the modules. -/
  depth : NameTable Nat
  /-- The internal modules that are imported somewhere. -/
  internalNodes : NameSet
  /-- The packages from elsewhere that are imported somewhere. -/
  externalNodes : NameSet
  deriving DecidableEq

namespace Graph

/-- The graph without an edge. -/
def empty : Graph where
  internal := .empty
  external := .empty
  stdlib := .empty
  cycles := []
  depth := .empty
  internalNodes := .empty
  externalNodes := .empty

/-- The graph with one more edge of the given kind, and whether the edge is new.  A dependency
whose kind is not known is no edge. -/
def addEdge (g : Graph) (kind : DependencyKind) (source target : String) : Graph × Bool :=
  match kind with
  | .internal =>
    let (edges, isNew) := g.internal.add source target
    ({ g with internal := edges, internalNodes := g.internalNodes.insert target }, isNew)
  | .external =>
    let (edges, isNew) := g.external.add source target
    ({ g with external := edges, externalNodes := g.externalNodes.insert target }, isNew)
  | .stdlib =>
    let (edges, isNew) := g.stdlib.add source target
    ({ g with stdlib := edges }, isNew)
  | .unknown => (g, false)

/-- The graph with the cycles and depths of its internal edges. -/
def compute (g : Graph) : Graph :=
  { g with cycles := g.internal.cycles, depth := g.internal.depths }

/-- The internal modules that a module imports. -/
def internalTargets (g : Graph) (name : String) : List String :=
  g.internal.targets name

/-! ### Views -/

/-- How often each name occurs in a list. -/
def tally (names : List String) : NameTable Nat :=
  names.foldl (fun table name => table.insert name ((table.get? name).getD 0 + 1)) .empty

/-- Does the first counted name come before the second one: the greater count first, and by name
where the counts are equal? -/
def countOrder (a b : String × Nat) : Bool :=
  b.2 < a.2 || (a.2 == b.2 && decide (a.1 ≤ b.1))

/-- How many internal imports each internal module has, in the order of the names. -/
def fanIn (g : Graph) : NameTable Nat :=
  tally g.internal.allTargets

/-- The modules with the number of internal modules that they import, the greatest first. -/
def byFanOut (g : Graph) : List (String × Nat) :=
  (g.internal.entries.map fun e => (e.1, e.2.length)).mergeSort countOrder

/-- The packages from elsewhere with the number of modules that import them, the greatest first. -/
def externalUsage (g : Graph) : List (String × Nat) :=
  (tally g.external.allTargets).entries.mergeSort countOrder

/-- The groups of modules that import each other, directly or not. -/
def cycleGroups (g : Graph) : List (List String) :=
  g.internal.groups

end Graph

end ModuleDeps
