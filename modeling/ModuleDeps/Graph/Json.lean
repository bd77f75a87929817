/-
Dependency graphs in JSON.

A graph is an object of seven members: its three edge maps and its depths are objects, its cycles
and its two sets of names arrays.  All members are required, others are ignored, and an array of the
seven values in order is read too.

Main definitions:

* `ModuleDeps.Graph.toJson` — the value that describes a graph;
* `ModuleDeps.Graph.ofJson?` — the graph that a value describes;
* `ModuleDeps.Graph.ofText?` — the graph that a text describes.
-/

import ModuleDeps.Graph.Basic
import ModuleDeps.Json.Members
import ModuleDeps.Json.Writer

set_option relaxedAutoImplicit false
set_option autoImplicit false

namespace ModuleDeps

/-- An array of strings. -/
def Json.ofStrings (ss : List String) : Json :=
  .array (ss.map .string)

/-- The object of an edge map, its members in the order of the keys. -/
def EdgeMap.toJson (edges : EdgeMap) : Json :=
  .object (edges.entries.map fun e => (e.1, .ofStrings e.2))

/-- The edge map of an object. -/
def EdgeMap.ofJson? : Json → Option EdgeMap
  | .object members => do
    return .ofList (← members.mapM fun m => do return (m.1, ← m.2.toStrings?))
  | _ => none

/-- The object of a table of numbers. -/
def NameTable.toJson (table : NameTable Nat) : Json :=
  .object (table.entries.map fun e => (e.1, .ofNat e.2))

/-- A number that fits in 64 bits. -/
def Json.toWord? (v : Json) : Option Nat :=
  v.toNat?.bind fun n => if n < Text.countLimit then some n else none

/-- The table of numbers of an object. -/
def NameTable.ofJson? : Json → Option (NameTable Nat)
  | .object members => do
    return .ofList (← members.mapM fun m => do return (m.1, ← m.2.toWord?))
  | _ => none

/-- The set of the names of an array. -/
def NameSet.ofJson? (v : Json) : Option NameSet := do
  return .ofList (← v.toStrings?)

namespace Graph

/-- The names of the members of a graph. -/
def memberNames : List String :=
  ["internal_edges", "external_edges", "stdlib_edges", "cycles", "depth", "all_internal_nodes",
    "all_external_nodes"]

/-- The values of the members of a graph. -/
def memberValues (g : Graph) : List Json :=
  [g.internal.toJson, g.external.toJson, g.stdlib.toJson, .array (g.cycles.map .ofStrings),
    g.depth.toJson, .ofStrings g.internalNodes.names, .ofStrings g.externalNodes.names]

/-- The value that describes a graph. -/
def toJson (g : Graph) : Json :=
  .object (memberNames.zip g.memberValues)

/-- The graph with the given values as members. -/
def ofValues? : List Json → Option Graph
  | [internal, external, stdlib, cycles, depth, internalNodes, externalNodes] => do
    return {
      internal := ← EdgeMap.ofJson? internal
      external := ← EdgeMap.ofJson? external
      stdlib := ← EdgeMap.ofJson? stdlib
      cycles := ← (← cycles.toItems?).mapM Json.toStrings?
      depth := ← NameTable.ofJson? depth
      internalNodes := ← NameSet.ofJson? internalNodes
      externalNodes := ← NameSet.ofJson? externalNodes }
  | _ => none

/-- The graph that a value describes. -/
def ofJson? : Json → Option Graph
  | .object members => do
    ofValues? (← memberNames.mapM fun name => do (← Json.member? members name))
  | .array values => ofValues? values
  | _ => none

/-- The graph that a text describes.  Members of an object that do not matter need not have a
value. -/
def ofText? (text : String) : Option Graph :=
  match Json.membersOf? memberNames.contains text with
  | some members => ofJson? (.object members)
  | none =>
    match Json.read text with
    | .ok (.array values) => ofValues? values
    | _ => none

/-- The text that describes a graph. -/
def toText (g : Graph) : String :=
  g.toJson.toCompact

end Graph

end ModuleDeps
