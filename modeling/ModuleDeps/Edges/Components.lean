/-
Groups of names that reach each other.

Two names belong to one group when each can be reached from the other by at least one edge.  A name
that reaches itself is in a group, alone if no other name reaches it and is reached by it.  Every
group is in increasing order, and the groups are in the order of their first names.

Main definitions:

* `ModuleDeps.EdgeMap.explore`, `ModuleDeps.EdgeMap.reached` — the names that can be reached;
* `ModuleDeps.EdgeMap.nodes` — all keys and targets, in increasing order;
* `ModuleDeps.EdgeMap.groups` — the groups.
-/

import ModuleDeps.Edges.Pending

set_option relaxedAutoImplicit false
set_option autoImplicit false

namespace ModuleDeps.EdgeMap

/-- The names in `seen` and those that can be reached from `todo` past them. -/
def explore (edges : EdgeMap) (todo seen : List String) : List String :=
  match todo with
  | [] => seen
  | name :: rest =>
    if h : name ∈ seen then edges.explore rest seen
    else
      have := edges.pending_cons h
      edges.explore (edges.targets name ++ rest) (name :: seen)
termination_by todo.length + edges.pending seen
decreasing_by
  · simp
  · simp only [List.length_append, List.length_cons]
    omega

/-- The names that can be reached from a name by at least one edge. -/
def reached (edges : EdgeMap) (name : String) : List String :=
  edges.explore (edges.targets name) []

/-- All keys and targets, in increasing order. -/
def nodes (edges : EdgeMap) : List String :=
  (NameSet.ofList (edges.keys ++ edges.allTargets)).names

/-- The names that can be reached, for each of some names. -/
def reachTable (edges : EdgeMap) (names : List String) : NameTable (List String) :=
  names.foldl (fun table name => table.insert name (edges.reached name)) .empty

/-- The names that can be reached from a name, read off a table. -/
def reachedIn (table : NameTable (List String)) (name : String) : List String :=
  (table.get? name).getD []

/-- The names that a name reaches and that reach it, in increasing order. -/
def groupOf (table : NameTable (List String)) (name : String) : List String :=
  (NameSet.ofList ((reachedIn table name).filter fun other =>
    (reachedIn table other).contains name)).names

/-- The groups of names that reach each other, in the order of their first names. -/
def groups (edges : EdgeMap) : List (List String) :=
  let table := edges.reachTable edges.nodes
  edges.nodes.filterMap fun name =>
    let group := groupOf table name
    if group.head? = some name then some group else none

end ModuleDeps.EdgeMap
