/-
Groups are the strongly connected components that have a cycle.

A library that looks for strongly connected components works on numbers.  It gets the numbered graph
of an edge map and gives the numbers back in components: lists of nodes, of which any two are joined
by walks in both directions.  A component is kept if it has more than one node, or if its only node
has an edge to itself; its names are put in order, and then the components are.

Nothing depends on the order in which the library gives the components, or the nodes of one.  A
name lies on a closed walk exactly if its component is kept, and so the outcome is always the list
of the groups of names that reach each other.

Main definitions:

* `ModuleDeps.NumberedGraph.IsComponents` — the nodes, parted into strongly connected components;
* `ModuleDeps.NumberedGraph.cyclicGroups` — the names of the components that have a cycle, in order.

Main results:

* `ModuleDeps.EdgeMap.transGen_numbered_iff` — walks between nodes are walks between their names;
* `ModuleDeps.NumberedGraph.exists_isComponents` — every graph has strongly connected components;
* `ModuleDeps.EdgeMap.cyclicGroups_eq_groups` — from any components one gets the groups;
* `ModuleDeps.EdgeMap.groups_eq_of_edge_iff` — the groups depend on nothing but the edges;
* `ModuleDeps.Graph.cycleGroups_are_strong_components` — **the groups are the strongly connected
  components that have a cycle**.
-/

import Mathlib
import ModuleDeps.Proofs.Numbering
import ModuleDeps.Proofs.Tallies

set_option relaxedAutoImplicit false
set_option autoImplicit false

namespace ModuleDeps

open Relation (ReflTransGen TransGen)

/-! ### Order -/

/-- Sorting a list without repetition puts it in strictly increasing order. -/
theorem pairwise_lt_mergeSort {α : Type} [LinearOrder α] {xs : List α} (h : xs.Nodup) :
    (xs.mergeSort (· ≤ ·)).Pairwise (· < ·) := by
  have hnodup : (xs.mergeSort (· ≤ ·)).Nodup := (List.mergeSort_perm xs _).nodup_iff.2 h
  exact (List.sortedLE_mergeSort.sortedLT_of_nodup hnodup).pairwise

namespace NumberedGraph

/-! ### Components -/

/-- One node has an edge to the other. -/
def Edge (g : NumberedGraph) (i j : Nat) : Prop :=
  (i, j) ∈ g.edges

/-- Walks lead from each of two nodes to the other; a node is joined to itself. -/
def Joined (g : NumberedGraph) (i j : Nat) : Prop :=
  ReflTransGen g.Edge i j ∧ ReflTransGen g.Edge j i

theorem Joined.symm {g : NumberedGraph} {i j : Nat} (h : g.Joined i j) : g.Joined j i :=
  ⟨h.2, h.1⟩

theorem Joined.trans {g : NumberedGraph} {i j k : Nat} (hij : g.Joined i j) (hjk : g.Joined j k) :
    g.Joined i k :=
  ⟨hij.1.trans hjk.1, hjk.2.trans hij.2⟩

/-- Along walks in both directions, a number that never grows stays the same. -/
theorem Joined.rank_eq {g : NumberedGraph} {r : Nat → Nat} (hr : ∀ i j, g.Edge i j → r j ≤ r i)
    {i j : Nat} (h : g.Joined i j) : r i = r j := by
  have hle : ∀ {i j}, ReflTransGen g.Edge i j → r j ≤ r i := by
    intro i j hij
    induction hij with
    | refl => exact Nat.le_refl _
    | tail _ hedge ih => exact Nat.le_trans (hr _ _ hedge) ih
  exact Nat.le_antisymm (hle h.2) (hle h.1)

/-- The nodes of a graph, parted into strongly connected components, in any order. -/
structure IsComponents (g : NumberedGraph) (components : List (List Nat)) : Prop where
  /-- No node stands twice. -/
  nodup : components.flatten.Nodup
  /-- Just the nodes stand in components. -/
  mem_iff : ∀ i, i ∈ components.flatten ↔ i < g.nodes.length
  /-- The component of a node has the nodes that are joined to it. -/
  joined : ∀ c ∈ components, ∀ i ∈ c, ∀ j < g.nodes.length, (j ∈ c ↔ g.Joined i j)

/-- Has the component a cycle?  It has more than one node, or its node has an edge to itself. -/
def isCyclic (g : NumberedGraph) (component : List Nat) : Bool :=
  1 < component.length || component.head?.any fun i => g.edges.contains (i, i)

/-- The names of the nodes of a component, in increasing order. -/
def sortedNames (g : NumberedGraph) (component : List Nat) : List String :=
  (component.filterMap (g.nodes[·]?)).mergeSort (· ≤ ·)

/-- The names of the components that have a cycle, in increasing order. -/
def cyclicGroups (g : NumberedGraph) (components : List (List Nat)) : List (List String) :=
  ((components.filter g.isCyclic).map g.sortedNames).mergeSort (· ≤ ·)

theorem mem_sortedNames_iff {g : NumberedGraph} {component : List Nat} {x : String} :
    x ∈ g.sortedNames component ↔ ∃ i ∈ component, g.nodes[i]? = some x := by
  rw [sortedNames, List.mem_mergeSort, List.mem_filterMap]

/-- A component with a cycle has a node. -/
theorem exists_mem_of_isCyclic {g : NumberedGraph} {component : List Nat}
    (h : g.isCyclic component = true) : ∃ i, i ∈ component := by
  cases component with
  | nil => simp [isCyclic] at h
  | cons i others => exact ⟨i, List.mem_cons_self⟩

/-- A component with a cycle has a node that is not the given one, or that has an edge to itself. -/
theorem exists_other_or_loop {g : NumberedGraph} {component : List Nat} (hnodup : component.Nodup)
    (h : g.isCyclic component = true) (i : Nat) : ∃ j ∈ component, j ≠ i ∨ g.Edge j j := by
  rw [isCyclic, Bool.or_eq_true, decide_eq_true_eq] at h
  match component with
  | [] => simp at h
  | [j] => exact ⟨j, List.mem_cons_self, Or.inr (by simpa [Edge] using h)⟩
  | j :: k :: rest =>
      have hjk : j ≠ k := fun heq => (List.nodup_cons.1 hnodup).1 (heq ▸ List.mem_cons_self)
      by_cases hj : j = i
      · exact ⟨k, by simp, Or.inl (hj ▸ hjk.symm)⟩
      · exact ⟨j, List.mem_cons_self, Or.inl hj⟩

/-- A component has a cycle if an edge leads from one of its nodes to one of its nodes. -/
theorem isCyclic_of_edge {g : NumberedGraph} {component : List Nat} {i j : Nat}
    (hi : i ∈ component) (hj : j ∈ component) (h : g.Edge i j) : g.isCyclic component = true := by
  match component with
  | [] => exact absurd hi List.not_mem_nil
  | [k] =>
      rw [List.mem_singleton.1 hi, List.mem_singleton.1 hj] at h
      simpa [isCyclic, Edge] using h
  | k :: m :: rest => simp [isCyclic]

/-- Every graph has strongly connected components. -/
theorem exists_isComponents (g : NumberedGraph) : ∃ components, g.IsComponents components := by
  classical
  -- of the nodes that are joined to each other, the first one stands for all of them
  let firsts := (List.range g.nodes.length).filter fun i => ∀ k < i, ¬ g.Joined k i
  let component (i : Nat) := (List.range g.nodes.length).filter fun j => g.Joined i j
  have hfirst : ∀ {i}, i ∈ firsts ↔ i < g.nodes.length ∧ ∀ k < i, ¬ g.Joined k i := by
    intro i
    simp [firsts]
  have hmem : ∀ {i j}, j ∈ component i ↔ j < g.nodes.length ∧ g.Joined i j := by
    intro i j
    simp [component]
  refine ⟨firsts.map component, ?_, ?_, ?_⟩
  · refine List.nodup_flatten.2 ⟨?_, List.pairwise_map.2 ?_⟩
    · intro c hc
      obtain ⟨i, -, rfl⟩ := List.mem_map.1 hc
      exact List.nodup_range.filter _
    · refine (List.pairwise_lt_range.filter _).imp_of_mem fun {i i'} _ hi' hlt k hk hk' => ?_
      exact (hfirst.1 hi').2 i hlt ((hmem.1 hk).2.trans (hmem.1 hk').2.symm)
  · intro k
    rw [List.mem_flatten]
    constructor
    · rintro ⟨c, hc, hk⟩
      obtain ⟨i, -, rfl⟩ := List.mem_map.1 hc
      exact (hmem.1 hk).1
    · intro hk
      have hself : g.Joined k k := ⟨.refl, .refl⟩
      have hex : ∃ i, g.Joined i k := ⟨k, hself⟩
      have hfind : Nat.find hex ∈ firsts := hfirst.2
        ⟨(Nat.find_min' hex hself).trans_lt hk, fun m hm hjoined =>
          Nat.find_min hex hm (hjoined.trans (Nat.find_spec hex))⟩
      exact ⟨_, List.mem_map_of_mem hfind, hmem.2 ⟨hk, Nat.find_spec hex⟩⟩
  · intro c hc i hi j hj
    obtain ⟨first, -, rfl⟩ := List.mem_map.1 hc
    obtain ⟨-, hjoined⟩ := hmem.1 hi
    constructor
    · intro hmemj
      exact hjoined.symm.trans (hmem.1 hmemj).2
    · intro hij
      exact hmem.2 ⟨hj, hjoined.trans hij⟩

end NumberedGraph

namespace EdgeMap

variable {edges : EdgeMap} {i j : Nat} {x y : String}

/-! ### Walks between nodes -/

/-- The ends of an edge are nodes. -/
theorem exists_nodes_of_edge (h : edges.Edge x y) :
    ∃ i j, edges.numbered.nodes[i]? = some x ∧ edges.numbered.nodes[j]? = some y ∧
      edges.numbered.Edge i j := by
  have hmem : some (x, y) ∈ edges.numbered.edges.map edges.numbered.ends := by
    rw [edges.shows_numbered.edges]
    exact List.mem_map_of_mem (mem_pairs_iff.2 h)
  obtain ⟨e, he, hends⟩ := List.mem_map.1 hmem
  obtain ⟨hx, hy⟩ := NumberedGraph.ends_eq_some_iff.1 hends
  exact ⟨e.1, e.2, hx, hy, he⟩

/-- An edge leads from a node to a node, as an edge leads from the name to the name. -/
theorem exists_names_of_edge (h : edges.numbered.Edge i j) :
    ∃ x y, edges.numbered.nodes[i]? = some x ∧ edges.numbered.nodes[j]? = some y ∧
      edges.Edge x y := by
  obtain ⟨⟨x, y⟩, hp, hends⟩ := edges.shows_numbered.exists_ends h
  obtain ⟨hx, hy⟩ := NumberedGraph.ends_eq_some_iff.1 hends
  exact ⟨x, y, hx, hy, mem_pairs_iff.1 hp⟩

/-- No two nodes have the same name. -/
theorem node_unique (hi : edges.numbered.nodes[i]? = some x)
    (hj : edges.numbered.nodes[j]? = some x) : i = j :=
  (idxOf_eq_of_getElem? edges.nodup_nodes_numbered hi).symm.trans
    (idxOf_eq_of_getElem? edges.nodup_nodes_numbered hj)

theorem edge_numbered_iff (hi : edges.numbered.nodes[i]? = some x)
    (hj : edges.numbered.nodes[j]? = some y) : edges.numbered.Edge i j ↔ edges.Edge x y := by
  constructor
  · intro h
    obtain ⟨x', y', hx, hy, hedge⟩ := exists_names_of_edge h
    rw [hi, Option.some.injEq] at hx
    rw [hj, Option.some.injEq] at hy
    rwa [hx, hy]
  · intro h
    obtain ⟨i', j', hx, hy, hedge⟩ := exists_nodes_of_edge h
    rwa [node_unique hi hx, node_unique hj hy]

/-- Walks between nodes are walks between their names. -/
theorem transGen_numbered_iff (hi : edges.numbered.nodes[i]? = some x)
    (hj : edges.numbered.nodes[j]? = some y) :
    TransGen edges.numbered.Edge i j ↔ edges.Reaches x y := by
  constructor
  · intro h
    induction h generalizing y with
    | single hedge => exact .single ((edge_numbered_iff hi hj).1 hedge)
    | tail _ hedge ih =>
        obtain ⟨z, -, hz, -, -⟩ := exists_names_of_edge hedge
        exact .tail (ih hz) ((edge_numbered_iff hz hj).1 hedge)
  · intro h
    induction h generalizing j with
    | single hedge => exact .single ((edge_numbered_iff hi hj).2 hedge)
    | tail _ hedge ih =>
        obtain ⟨k, -, hk, -, -⟩ := exists_nodes_of_edge hedge
        exact .tail (ih hk) ((edge_numbered_iff hk hj).2 hedge)

/-- Nodes are joined exactly if their names are equal or reach each other. -/
theorem joined_numbered_iff (hi : edges.numbered.nodes[i]? = some x)
    (hj : edges.numbered.nodes[j]? = some y) :
    edges.numbered.Joined i j ↔ x = y ∨ edges.Reaches x y ∧ edges.Reaches y x := by
  have heq : i = j ↔ x = y := by
    constructor
    · rintro rfl
      exact Option.some.inj (hi.symm.trans hj)
    · rintro rfl
      exact node_unique hi hj
  rw [NumberedGraph.Joined, Relation.reflTransGen_iff_eq_or_transGen,
    Relation.reflTransGen_iff_eq_or_transGen, transGen_numbered_iff hi hj,
    transGen_numbered_iff hj hi, eq_comm, heq, ← or_and_left]

/-! ### Components and groups -/

/-- The names of a group are in increasing order. -/
theorem pairwise_lt_of_mem_groups {group : List String} (h : group ∈ edges.groups) :
    group.Pairwise (· < ·) := by
  obtain ⟨x, -, rfl⟩ := exists_mem_groupOf_eq h
  exact NameSet.sorted _

/-- The groups are in increasing order, because each of them is kept at its first name. -/
theorem pairwise_lt_groups (edges : EdgeMap) : edges.groups.Pairwise (· < ·) := by
  have hhead : ∀ {name : String} {group kept : List String},
      (if group.head? = some name then some group else none) = some kept →
      ∃ others, kept = name :: others := by
    intro name group kept h
    split at h
    · next hname =>
      rw [Option.some.injEq] at h
      exact List.head?_eq_some_iff.1 (h ▸ hname)
    · exact absurd h.symm (Option.some_ne_none _)
  rw [groups]
  refine List.Pairwise.filterMap _ ?_ (NameSet.sorted _)
  intro name name' hlt group hgroup group' hgroup'
  obtain ⟨others, rfl⟩ := hhead hgroup
  obtain ⟨others', rfl⟩ := hhead hgroup'
  exact List.cons_lt_cons_iff.2 (Or.inl hlt)

/-- Two groups have no common name. -/
theorem pairwise_disjoint_groups (edges : EdgeMap) : edges.groups.Pairwise List.Disjoint := by
  refine edges.pairwise_lt_groups.imp_of_mem ?_
  intro group group' h h' hlt x hx hx'
  exact absurd (eq_of_mem_groups h h' hx hx') (ne_of_lt hlt)

/-- Two names are in a common group exactly if they reach each other. -/
theorem exists_common_group_iff :
    (∃ group ∈ edges.groups, x ∈ group ∧ y ∈ group) ↔ edges.Reaches x y ∧ edges.Reaches y x := by
  constructor
  · rintro ⟨group, hgroup, hx, hy⟩
    obtain ⟨z, -, hmem⟩ := exists_mem_iff_of_mem_groups hgroup
    obtain ⟨hzx, hxz⟩ := (hmem x).1 hx
    obtain ⟨hzy, hyz⟩ := (hmem y).1 hy
    exact ⟨hxz.trans hzy, hyz.trans hzx⟩
  · rintro ⟨hxy, hyx⟩
    have hxx := hxy.trans hyx
    obtain ⟨group, hgroup, hmem⟩ := exists_group_of_reaches_self hxx
    exact ⟨group, hgroup, (hmem x).2 ⟨hxx, hxx⟩, (hmem y).2 ⟨hxy, hyx⟩⟩

/-- The groups are the lists, in increasing order, of all names that a name on a closed walk reaches
and is reached by. -/
theorem mem_groups_iff {group : List String} :
    group ∈ edges.groups ↔ group.Pairwise (· < ·) ∧
      ∃ x, edges.Reaches x x ∧ ∀ y, y ∈ group ↔ edges.Reaches x y ∧ edges.Reaches y x := by
  constructor
  · intro h
    exact ⟨pairwise_lt_of_mem_groups h, exists_mem_iff_of_mem_groups h⟩
  · rintro ⟨hsorted, x, hxx, hmem⟩
    obtain ⟨group', hgroup', hmem'⟩ := exists_group_of_reaches_self hxx
    have heq : group = group' := hsorted.eq_of_mem_iff (pairwise_lt_of_mem_groups hgroup')
      fun y => (hmem y).trans (hmem' y).symm
    rwa [heq]

/-- The groups depend on nothing but the edges. -/
theorem groups_eq_of_edge_iff {edges' : EdgeMap} (h : ∀ x y, edges.Edge x y ↔ edges'.Edge x y) :
    edges.groups = edges'.groups := by
  have hedge : edges.Edge = edges'.Edge := by
    funext x y
    exact propext (h x y)
  refine edges.pairwise_lt_groups.eq_of_mem_iff edges'.pairwise_lt_groups fun group => ?_
  rw [mem_groups_iff, mem_groups_iff, Reaches, Reaches, hedge]

section Components

variable {components : List (List Nat)} {c : List Nat}

/-- Every node of a component has a name. -/
theorem exists_name_of_mem (h : edges.numbered.IsComponents components) (hc : c ∈ components)
    (hi : i ∈ c) : ∃ x, edges.numbered.nodes[i]? = some x := by
  have hlt := (h.mem_iff i).1 (List.mem_flatten_of_mem hc hi)
  exact ⟨_, List.getElem?_eq_getElem hlt⟩

/-- Two nodes are in one component exactly if their names are equal or reach each other. -/
theorem mem_component_iff (h : edges.numbered.IsComponents components) (hc : c ∈ components)
    (hi : i ∈ c) (hx : edges.numbered.nodes[i]? = some x)
    (hy : edges.numbered.nodes[j]? = some y) :
    j ∈ c ↔ x = y ∨ edges.Reaches x y ∧ edges.Reaches y x := by
  rw [h.joined c hc i hi j (List.getElem?_eq_some_iff.1 hy).1, joined_numbered_iff hx hy]

/-- The names in the component of a name: those that reach it and are reached by it, and itself. -/
theorem mem_sortedNames_numbered_iff (h : edges.numbered.IsComponents components)
    (hc : c ∈ components) (hi : i ∈ c) (hx : edges.numbered.nodes[i]? = some x) :
    y ∈ edges.numbered.sortedNames c ↔ x = y ∨ edges.Reaches x y ∧ edges.Reaches y x := by
  rw [NumberedGraph.mem_sortedNames_iff]
  constructor
  · rintro ⟨j, hj, hy⟩
    exact (mem_component_iff h hc hi hx hy).1 hj
  · rintro (rfl | hxy)
    · exact ⟨i, hi, hx⟩
    · obtain ⟨z, hyz, -⟩ := Relation.TransGen.head'_iff.1 hxy.2
      obtain ⟨j, -, hy, -, -⟩ := exists_nodes_of_edge hyz
      exact ⟨j, (mem_component_iff h hc hi hx hy).2 (Or.inr hxy), hy⟩

/-- A component has a cycle exactly if a name of it lies on a closed walk. -/
theorem isCyclic_numbered_iff (h : edges.numbered.IsComponents components) (hc : c ∈ components)
    (hi : i ∈ c) (hx : edges.numbered.nodes[i]? = some x) :
    edges.numbered.isCyclic c = true ↔ edges.Reaches x x := by
  constructor
  · intro hcyclic
    -- any other node, or the node with an edge to itself, is joined to this one
    obtain ⟨j, hj, hother⟩ := NumberedGraph.exists_other_or_loop
      ((List.nodup_flatten.1 h.nodup).1 c hc) hcyclic i
    obtain ⟨y, hy⟩ := exists_name_of_mem h hc hj
    rcases (mem_component_iff h hc hi hx hy).1 hj with rfl | ⟨hxy, hyx⟩
    · rcases hother with hne | hloop
      · exact absurd (node_unique hy hx) hne
      · exact .single ((edge_numbered_iff hy hy).1 hloop)
    · exact hxy.trans hyx
  · intro hxx
    -- the first edge of the closed walk leads to a name of the component
    obtain ⟨z, hxz, hzx⟩ := Relation.TransGen.head'_iff.1 hxx
    have hz : z ∈ edges.numbered.sortedNames c := by
      rw [mem_sortedNames_numbered_iff h hc hi hx]
      exact (Relation.reflTransGen_iff_eq_or_transGen.1 hzx).imp_right fun hzx => ⟨.single hxz, hzx⟩
    obtain ⟨k, hk, hkz⟩ := NumberedGraph.mem_sortedNames_iff.1 hz
    exact NumberedGraph.isCyclic_of_edge hi hk ((edge_numbered_iff hx hkz).2 hxz)

/-- The names of a component are in increasing order. -/
theorem pairwise_lt_sortedNames (h : edges.numbered.IsComponents components)
    (hc : c ∈ components) : (edges.numbered.sortedNames c).Pairwise (· < ·) := by
  refine pairwise_lt_mergeSort (List.Nodup.filterMap ?_ ((List.nodup_flatten.1 h.nodup).1 c hc))
  intro i j x hi hj
  exact node_unique hi hj

/-- Just the groups come from the components that have a cycle. -/
theorem mem_cyclicGroups_iff (h : edges.numbered.IsComponents components) {group : List String} :
    group ∈ edges.numbered.cyclicGroups components ↔ group ∈ edges.groups := by
  have hmem : ∀ {c i x}, c ∈ components → i ∈ c → edges.numbered.nodes[i]? = some x →
      edges.Reaches x x → ∀ y,
      y ∈ edges.numbered.sortedNames c ↔ edges.Reaches x y ∧ edges.Reaches y x := by
    intro c i x hc hi hx hxx y
    rw [mem_sortedNames_numbered_iff h hc hi hx, or_iff_right_of_imp]
    rintro rfl
    exact ⟨hxx, hxx⟩
  rw [NumberedGraph.cyclicGroups, List.mem_mergeSort, List.mem_map, mem_groups_iff]
  constructor
  · rintro ⟨c, hc, rfl⟩
    obtain ⟨hc, hcyclic⟩ := List.mem_filter.1 hc
    obtain ⟨i, hi⟩ := NumberedGraph.exists_mem_of_isCyclic hcyclic
    obtain ⟨x, hx⟩ := exists_name_of_mem h hc hi
    have hxx := (isCyclic_numbered_iff h hc hi hx).1 hcyclic
    exact ⟨pairwise_lt_sortedNames h hc, x, hxx, hmem hc hi hx hxx⟩
  · rintro ⟨hsorted, x, hxx, hgroup⟩
    obtain ⟨z, hxz, -⟩ := Relation.TransGen.head'_iff.1 hxx
    obtain ⟨i, -, hx, -, -⟩ := exists_nodes_of_edge hxz
    obtain ⟨c, hc, hi⟩ := List.mem_flatten.1 ((h.mem_iff i).2 (List.getElem?_eq_some_iff.1 hx).1)
    refine ⟨c, List.mem_filter.2 ⟨hc, (isCyclic_numbered_iff h hc hi hx).2 hxx⟩, ?_⟩
    exact (pairwise_lt_sortedNames h hc).eq_of_mem_iff hsorted
      fun y => (hmem hc hi hx hxx y).trans (hgroup y).symm

/-- No group comes from two components. -/
theorem nodup_cyclicGroups (h : edges.numbered.IsComponents components) :
    ((components.filter edges.numbered.isCyclic).map edges.numbered.sortedNames).Nodup := by
  refine List.pairwise_map.2 (((List.nodup_flatten.1 h.nodup).2.filter _).imp_of_mem ?_)
  intro c c' hc _ hdisjoint heq
  obtain ⟨hc, hcyclic⟩ := List.mem_filter.1 hc
  obtain ⟨i, hi⟩ := NumberedGraph.exists_mem_of_isCyclic hcyclic
  obtain ⟨x, hx⟩ := exists_name_of_mem h hc hi
  -- the name of a node of the one component would be the name of a node of the other one
  have hmem : x ∈ edges.numbered.sortedNames c' :=
    heq ▸ NumberedGraph.mem_sortedNames_iff.2 ⟨i, hi, hx⟩
  obtain ⟨j, hj, hx'⟩ := NumberedGraph.mem_sortedNames_iff.1 hmem
  exact hdisjoint hi (node_unique hx hx' ▸ hj)

/-- From any components one gets the groups. -/
theorem cyclicGroups_eq_groups (h : edges.numbered.IsComponents components) :
    edges.numbered.cyclicGroups components = edges.groups :=
  (pairwise_lt_mergeSort (nodup_cyclicGroups h)).eq_of_mem_iff edges.pairwise_lt_groups
    fun _ => mem_cyclicGroups_iff h

end Components

end EdgeMap

namespace Graph

/-- **The groups are the strongly connected components that have a cycle.**  They are what one gets
from strongly connected components, whatever the order in which these are given.  Two names, equal
or not, are in a common group exactly if walks of at least one edge lead from each to the other.
Groups have no common name, each of them has its names in increasing order, and they are in
increasing order themselves; and they depend on nothing but the internal edges. -/
theorem cycleGroups_are_strong_components (g : Graph) :
    ((∃ components, g.internal.numbered.IsComponents components) ∧
      ∀ components, g.internal.numbered.IsComponents components →
        g.internal.numbered.cyclicGroups components = g.cycleGroups) ∧
    (∀ u v, (∃ group ∈ g.cycleGroups, u ∈ group ∧ v ∈ group) ↔
      g.internal.Reaches u v ∧ g.internal.Reaches v u) ∧
    g.cycleGroups.Pairwise List.Disjoint ∧
    (∀ group ∈ g.cycleGroups, group ≠ [] ∧ group.Pairwise (· < ·)) ∧
    g.cycleGroups.Pairwise (· < ·) ∧
    ∀ g' : Graph, (∀ x y, g'.internal.Edge x y ↔ g.internal.Edge x y) →
      g'.cycleGroups = g.cycleGroups := by
  refine ⟨⟨g.internal.numbered.exists_isComponents, fun components h => ?_⟩, fun u v => ?_,
    g.internal.pairwise_disjoint_groups, fun group hgroup => ⟨?_, ?_⟩,
    g.internal.pairwise_lt_groups, fun g' h => ?_⟩
  · exact EdgeMap.cyclicGroups_eq_groups h
  · exact EdgeMap.exists_common_group_iff
  · obtain ⟨x, hx, -⟩ := EdgeMap.exists_mem_groupOf_eq hgroup
    exact List.ne_nil_of_mem hx
  · exact EdgeMap.pairwise_lt_of_mem_groups hgroup
  · exact EdgeMap.groups_eq_of_edge_iff h

/-- A ring of two modules that leads, through a module on no closed walk, to a module that imports
itself.  The components come with the last one first. -/
theorem cycleGroups_of_ring_and_loop :
    let g : Graph :=
      { Graph.empty with
        internal := .ofList [("a", ["b"]), ("b", ["a", "c"]), ("c", ["d"]), ("d", ["d"])] }
    let components := [[3], [2], [1, 0]]
    g.internal.numbered.IsComponents components ∧ g.cycleGroups = [["a", "b"], ["d"]] ∧
      g.internal.numbered.cyclicGroups components = g.cycleGroups := by
  intro g components
  have hnodes : g.internal.numbered.nodes = ["a", "b", "c", "d"] := by
    rw [g.internal.shows_numbered.nodes]
    decide +kernel
  have hedge : ∀ i j, g.internal.numbered.Edge i j ↔
      (i, j) ∈ [(0, 1), (1, 0), (1, 2), (2, 3), (3, 3)] := by
    intro i j
    rw [NumberedGraph.Edge, g.internal.edges_numbered, hnodes]
    have hpairs : g.internal.pairs =
        [("a", "b"), ("b", "a"), ("b", "c"), ("c", "d"), ("d", "d")] := by decide +kernel
    rw [hpairs]
    rfl
  -- in a component there is an edge between any two nodes
  have hring : ∀ c ∈ components, ∀ i ∈ c, ∀ j ∈ c, ReflTransGen g.internal.numbered.Edge i j := by
    have hall : ∀ c ∈ components, ∀ i ∈ c, ∀ j ∈ c,
        i = j ∨ (i, j) ∈ [(0, 1), (1, 0), (1, 2), (2, 3), (3, 3)] := by decide
    intro c hc i hi j hj
    rcases hall c hc i hi j hj with rfl | hij
    · exact .refl
    · exact .single ((hedge i j).2 hij)
  -- no edge leads to a component that comes later
  let rank (i : Nat) : Nat := [2, 2, 1, 0].getD i 0
  have hrank : ∀ i j, g.internal.numbered.Edge i j → rank j ≤ rank i := by
    have hall : ∀ e ∈ [(0, 1), (1, 0), (1, 2), (2, 3), (3, 3)], rank e.2 ≤ rank e.1 := by decide
    intro i j hij
    exact hall (i, j) ((hedge i j).1 hij)
  have hcomponents : g.internal.numbered.IsComponents components := by
    have hapart : ∀ j < 4, ∀ c ∈ components, ∀ i ∈ c, rank i = rank j → j ∈ c := by decide
    refine ⟨by decide, fun i => ?_, fun c hc i hi j hlt => ⟨fun hj => ?_, fun hjoined => ?_⟩⟩
    · rw [hnodes]
      simp [components]
      omega
    · exact ⟨hring c hc i hi j hj, hring c hc j hj i hi⟩
    · rw [hnodes] at hlt
      exact hapart j hlt c hc i hi (hjoined.rank_eq hrank)
  exact ⟨hcomponents, by decide +kernel,
    (cycleGroups_are_strong_components g).1.2 components hcomponents⟩

end Graph

end ModuleDeps
