/-
An edge map as a graph with numbered nodes.

The names are numbered in the order in which they first appear when the keys are walked in order,
each key before its targets.  Every target of every key is an edge, repeated ones included.

Main definitions:

* `ModuleDeps.NumberedGraph` — nodes, their numbers and the edges between them;
* `ModuleDeps.EdgeMap.numbered` — the numbered graph of an edge map.
-/

import Std.Data.HashMap
import ModuleDeps.Edges.Basic

set_option relaxedAutoImplicit false
set_option autoImplicit false

namespace ModuleDeps

/-- A graph with numbered nodes. -/
structure NumberedGraph where
  /-- The names of the nodes; a node's number is its place in the list. -/
  nodes : List String
  /-- The number of each name. -/
  index : Std.HashMap String Nat
  /-- The edges, given by the numbers of their ends. -/
  edges : List (Nat × Nat)

namespace NumberedGraph

/-- The graph without a node. -/
def empty : NumberedGraph := ⟨[], ∅, []⟩

/-- The graph with a node for the name, and the number of that node. -/
def node (g : NumberedGraph) (name : String) : NumberedGraph × Nat :=
  match g.index[name]? with
  | some i => (g, i)
  | none =>
    let i := g.nodes.length
    ({ g with nodes := g.nodes ++ [name], index := g.index.insert name i }, i)

/-- The graph with one more edge from the node with the given number. -/
def addEdge (source : Nat) (g : NumberedGraph) (target : String) : NumberedGraph :=
  let (g, number) := g.node target
  { g with edges := g.edges ++ [(source, number)] }

/-- The graph with one more key and its targets. -/
def addEntry (g : NumberedGraph) (entry : String × List String) : NumberedGraph :=
  let (g, source) := g.node entry.1
  entry.2.foldl (addEdge source) g

/-- Does the index give every node its own number, and nothing else? -/
def isConsistent (g : NumberedGraph) : Bool :=
  g.index.size == g.nodes.length && g.nodes.zipIdx.all fun (name, i) => g.index[name]? == some i

end NumberedGraph

/-- The numbered graph of an edge map. -/
def EdgeMap.numbered (edges : EdgeMap) : NumberedGraph :=
  edges.entries.foldl NumberedGraph.addEntry .empty

end ModuleDeps
