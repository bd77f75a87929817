/-
Numbered graphs show the names and edges of an edge map.

Names are numbered as they come, and a name that comes again keeps its number.  The index, which is
all that the numbering looks at, and the list of nodes say the same: a name has a number exactly if
the node with this number has the name.  So the nodes are the names in the order in which they first
appear, and an edge that is read through the names of its nodes is the edge that was added.

Main definitions:

* `ModuleDeps.NumberedGraph.ends` — an edge, given by the names of its ends;
* `ModuleDeps.NumberedGraph.Shows` — a graph has the nodes and edges for names that came in order.

Main results:

* `ModuleDeps.NumberedGraph.Shows.node`, `ModuleDeps.NumberedGraph.Shows.addEdge`,
  `ModuleDeps.NumberedGraph.Shows.addEntry` — what each operation adds;
* `ModuleDeps.EdgeMap.shows_numbered` — the numbered graph of an edge map shows its names and edges;
* `ModuleDeps.EdgeMap.edges_numbered` — the edges are the pairs of the places of their ends;
* `ModuleDeps.EdgeMap.numbered_keeps_names_and_edges` — **the numbered graph has the names in the
  order in which they first appear, an index that agrees with it, and the edges in their order**.
-/

import ModuleDeps.Edges.Numbered
import ModuleDeps.Proofs.GraphImage

set_option relaxedAutoImplicit false
set_option autoImplicit false

namespace ModuleDeps

/-! ### Names with their places -/

/-- A name keeps its place when more names are appended. -/
theorem getElem?_of_extended {xs ys : List String} (h : xs <+: ys) {i : Nat} {x : String}
    (hx : xs[i]? = some x) : ys[i]? = some x := by
  obtain ⟨hi, rfl⟩ := List.getElem?_eq_some_iff.1 hx
  exact List.prefix_iff_getElem?.1 h i hi

theorem getElem?_concat_eq_some_iff {xs : List String} {i : Nat} {x y : String} :
    (xs ++ [x])[i]? = some y ↔ xs[i]? = some y ∨ i = xs.length ∧ x = y := by
  grind

/-- Where no name stands twice, the place of a name is where it stands. -/
theorem idxOf_eq_of_getElem? {xs : List String} (hxs : xs.Nodup) {i : Nat} {x : String}
    (hx : xs[i]? = some x) : xs.idxOf x = i := by
  obtain ⟨hi, rfl⟩ := List.getElem?_eq_some_iff.1 hx
  exact hxs.idxOf_getElem i hi

/-- What is left of a list without its repetitions is in the order of first appearance. -/
theorem pairwise_idxOf_eraseDups (xs : List String) :
    xs.eraseDups.Pairwise fun x y => xs.idxOf x < xs.idxOf y := by
  induction xs using List.reverseRecOn with
  | nil => simp
  | append_singleton xs z ih =>
      -- a name that was there already keeps its first place
      have hkeep : ∀ x ∈ xs.eraseDups, (xs ++ [z]).idxOf x = xs.idxOf x := fun x hx =>
        List.idxOf_append_of_mem (List.mem_eraseDups.1 hx)
      have hold : xs.eraseDups.Pairwise fun x y => (xs ++ [z]).idxOf x < (xs ++ [z]).idxOf y := by
        refine List.Pairwise.imp_of_mem (fun {x y} hx hy hxy => ?_) ih
        rwa [hkeep x hx, hkeep y hy]
      rw [eraseDups_concat]
      split
      · exact hold
      · next hz =>
        refine List.pairwise_append.2 ⟨hold, List.pairwise_singleton _ _, fun x hx y hy => ?_⟩
        rw [List.mem_singleton.1 hy, hkeep x hx, List.idxOf_append_of_notMem hz]
        exact Nat.lt_add_right _ (List.idxOf_lt_length_of_mem (List.mem_eraseDups.1 hx))

namespace NumberedGraph

/-! ### What a graph shows -/

/-- An edge, given by the names of its ends. -/
def ends (g : NumberedGraph) (e : Nat × Nat) : Option (String × String) :=
  g.nodes[e.1]?.bind fun x => g.nodes[e.2]?.map fun y => (x, y)

theorem ends_eq_some_iff {g : NumberedGraph} {e : Nat × Nat} {p : String × String} :
    g.ends e = some p ↔ g.nodes[e.1]? = some p.1 ∧ g.nodes[e.2]? = some p.2 := by
  simp [ends, Option.bind_eq_some_iff, Prod.ext_iff]

/-- The names that came, and the edges that were added, both in order, as the graph shows them. -/
structure Shows (g : NumberedGraph) (names : List String) (pairs : List (String × String)) :
    Prop where
  /-- Each name is a node once. -/
  nodes : g.nodes = names.eraseDups
  /-- A name has a number exactly if the node with this number has the name. -/
  index : ∀ (name : String) (i : Nat), g.index[name]? = some i ↔ g.nodes[i]? = some name
  /-- The edges have the right ends. -/
  edges : g.edges.map g.ends = pairs.map some

theorem shows_empty : empty.Shows [] [] where
  nodes := rfl
  index := by simp [empty]
  edges := rfl

section Operations

variable {g : NumberedGraph} {names : List String} {pairs : List (String × String)}

/-- Every edge has ends. -/
theorem Shows.exists_ends (h : g.Shows names pairs) {e : Nat × Nat} (he : e ∈ g.edges) :
    ∃ p ∈ pairs, g.ends e = some p := by
  have hmem : g.ends e ∈ pairs.map some := h.edges ▸ List.mem_map_of_mem he
  obtain ⟨p, hp, hends⟩ := List.mem_map.1 hmem
  exact ⟨p, hp, hends.symm⟩

/-- The index has an entry for each node. -/
theorem Shows.size_index (h : g.Shows names pairs) : g.index.size = g.nodes.length := by
  have hperm : g.index.keys.Perm g.nodes := by
    refine (List.perm_ext_iff_of_nodup Std.HashMap.nodup_keys ?_).2 fun name => ?_
    · rw [h.nodes]
      exact nodup_eraseDups names
    · rw [Std.HashMap.mem_keys, Std.HashMap.mem_iff_isSome_getElem?, Option.isSome_iff_exists,
        List.mem_iff_getElem?]
      exact exists_congr fun i => h.index name i
  rw [← hperm.length_eq, Std.HashMap.length_keys]

/-- The check that index and nodes agree succeeds. -/
theorem Shows.isConsistent (h : g.Shows names pairs) : g.isConsistent = true := by
  rw [NumberedGraph.isConsistent, Bool.and_eq_true, beq_iff_eq, List.all_eq_true]
  refine ⟨h.size_index, fun ⟨name, i⟩ hmem => ?_⟩
  rw [beq_iff_eq]
  exact (h.index name i).2 (List.mem_zipIdx_iff_getElem?.1 hmem)

/-- The ends of the edges are still the same when nodes have been added. -/
theorem Shows.map_ends_of_extended (h : g.Shows names pairs) {g' : NumberedGraph}
    (hp : g.nodes <+: g'.nodes) : g.edges.map g'.ends = pairs.map some := by
  rw [← h.edges]
  refine List.map_congr_left fun e he => ?_
  obtain ⟨p, -, hends⟩ := h.exists_ends he
  obtain ⟨hx, hy⟩ := ends_eq_some_iff.1 hends
  rw [hends]
  exact ends_eq_some_iff.2 ⟨getElem?_of_extended hp hx, getElem?_of_extended hp hy⟩

/-- A name that comes gets a number, and the node with this number has the name. -/
theorem Shows.node (h : g.Shows names pairs) (name : String) :
    (g.node name).1.Shows (names ++ [name]) pairs ∧ g.nodes <+: (g.node name).1.nodes ∧
      (g.node name).1.nodes[(g.node name).2]? = some name := by
  cases hi : g.index[name]? with
  | some i =>
      have hname : g.nodes[i]? = some name := (h.index name i).1 hi
      have hmem : name ∈ names := by
        rw [← List.mem_eraseDups, ← h.nodes]
        exact List.mem_of_getElem? hname
      have hnode : g.node name = (g, i) := by simp [NumberedGraph.node, hi]
      rw [hnode]
      refine ⟨⟨?_, h.index, h.edges⟩, List.prefix_refl _, hname⟩
      rw [eraseDups_concat, if_pos hmem, h.nodes]
  | none =>
      have hnew : ∀ i : Nat, g.nodes[i]? ≠ some name := by
        intro i hname
        rw [(h.index name i).2 hname] at hi
        exact absurd hi (Option.some_ne_none i)
      have hmem : name ∉ names := by
        rw [← List.mem_eraseDups, ← h.nodes]
        intro hmem
        obtain ⟨i, hi⟩ := List.getElem?_of_mem hmem
        exact hnew i hi
      have hnode : g.node name = (⟨g.nodes ++ [name], g.index.insert name g.nodes.length,
          g.edges⟩, g.nodes.length) := by simp [NumberedGraph.node, hi]
      rw [hnode]
      refine ⟨⟨?_, ?_, ?_⟩, List.prefix_append _ _, by simp⟩
      · rw [eraseDups_concat, if_neg hmem, h.nodes]
      · intro x i
        rw [Std.HashMap.getElem?_insert, getElem?_concat_eq_some_iff]
        by_cases hx : name = x
        · subst hx
          simp [hnew, eq_comm]
        · simp [hx, h.index]
      · exact h.map_ends_of_extended (List.prefix_append _ _)

/-- One more edge is shown, from a node with the given name. -/
theorem Shows.addEdge (h : g.Shows names pairs) {source : Nat} {x : String}
    (hx : g.nodes[source]? = some x) (target : String) :
    (addEdge source g target).Shows (names ++ [target]) (pairs ++ [(x, target)]) ∧
      (addEdge source g target).nodes[source]? = some x := by
  obtain ⟨hnode, hp, htarget⟩ := h.node target
  have hsource : (g.node target).1.nodes[source]? = some x := getElem?_of_extended hp hx
  have hends : (g.node target).1.ends (source, (g.node target).2) = some (x, target) :=
    ends_eq_some_iff.2 ⟨hsource, htarget⟩
  refine ⟨⟨hnode.nodes, hnode.index, ?_⟩, hsource⟩
  rw [List.map_append, ← hnode.edges, List.map_singleton, ← hends, ← List.map_singleton,
    ← List.map_append]
  rfl

/-- One more key is shown, with its targets. -/
theorem Shows.addEntry (h : g.Shows names pairs) (entry : String × List String) :
    (g.addEntry entry).Shows (names ++ entry.1 :: entry.2) (pairs ++ entry.2.map (entry.1, ·)) := by
  obtain ⟨source, targets⟩ := entry
  -- the edges start at a node that keeps its name while targets are added
  have hfold : ∀ (ts : List String) {g : NumberedGraph} {names : List String}
      {pairs : List (String × String)} {i : Nat}, g.Shows names pairs →
      g.nodes[i]? = some source →
      (ts.foldl (NumberedGraph.addEdge i) g).Shows (names ++ ts) (pairs ++ ts.map (source, ·)) := by
    intro ts
    induction ts with
    | nil => intro g names pairs i h _; simpa using h
    | cons t ts ih =>
        intro g names pairs i h hi
        obtain ⟨hedge, hi'⟩ := h.addEdge hi t
        simpa using ih hedge hi'
  obtain ⟨hnode, -, hsource⟩ := h.node source
  have := hfold targets hnode hsource
  rwa [List.append_assoc, List.singleton_append] at this

end Operations

end NumberedGraph

namespace EdgeMap

/-- The names of an edge map as they come, each key before its targets. -/
def namesInOrder (edges : EdgeMap) : List String :=
  edges.entries.flatMap fun e => e.1 :: e.2

theorem mem_namesInOrder_iff {edges : EdgeMap} {x : String} :
    x ∈ edges.namesInOrder ↔ x ∈ edges.keys ∨ x ∈ edges.allTargets := by
  simp only [namesInOrder, keys, allTargets, List.mem_flatMap, List.mem_map, List.mem_cons]
  constructor
  · rintro ⟨e, he, rfl | hx⟩
    · exact .inl ⟨e, he, rfl⟩
    · exact .inr ⟨e, he, hx⟩
  · rintro (⟨e, he, rfl⟩ | ⟨e, he, hx⟩)
    · exact ⟨e, he, .inl rfl⟩
    · exact ⟨e, he, .inr hx⟩

/-- The numbered graph of an edge map shows its names and its edges. -/
theorem shows_numbered (edges : EdgeMap) :
    edges.numbered.Shows edges.namesInOrder edges.pairs := by
  have hfold : ∀ (es : List (String × List String)) {g : NumberedGraph} {names : List String}
      {pairs : List (String × String)}, g.Shows names pairs →
      (es.foldl NumberedGraph.addEntry g).Shows (names ++ es.flatMap fun e => e.1 :: e.2)
        (pairs ++ es.flatMap fun e => e.2.map (e.1, ·)) := by
    intro es
    induction es with
    | nil => intro g names pairs h; simpa using h
    | cons e es ih =>
        intro g names pairs h
        simpa using ih (h.addEntry e)
  exact hfold edges.entries NumberedGraph.shows_empty

theorem nodup_nodes_numbered (edges : EdgeMap) : edges.numbered.nodes.Nodup := by
  rw [edges.shows_numbered.nodes]
  exact nodup_eraseDups _

/-- The edges are the pairs of the places of their ends. -/
theorem edges_numbered (edges : EdgeMap) : edges.numbered.edges =
    edges.pairs.map fun p => (edges.numbered.nodes.idxOf p.1, edges.numbered.nodes.idxOf p.2) := by
  let places (p : String × String) : Nat × Nat :=
    (edges.numbered.nodes.idxOf p.1, edges.numbered.nodes.idxOf p.2)
  have h := edges.shows_numbered
  -- an edge is found again at the places of its ends
  have hplaces : ∀ e ∈ edges.numbered.edges, (edges.numbered.ends e).map places = some e := by
    intro e he
    obtain ⟨p, -, hends⟩ := h.exists_ends he
    obtain ⟨hx, hy⟩ := NumberedGraph.ends_eq_some_iff.1 hends
    rw [hends, Option.map_some, Option.some.injEq]
    exact Prod.ext (idxOf_eq_of_getElem? edges.nodup_nodes_numbered hx)
      (idxOf_eq_of_getElem? edges.nodup_nodes_numbered hy)
  have hsome : edges.numbered.edges.map some = (edges.pairs.map places).map some :=
    calc edges.numbered.edges.map some
        = (edges.numbered.edges.map edges.numbered.ends).map (Option.map places) := by
          rw [List.map_map]
          exact List.map_congr_left fun e he => (hplaces e he).symm
      _ = (edges.pairs.map some).map (Option.map places) := by rw [h.edges]
      _ = (edges.pairs.map places).map some := by rw [List.map_map, List.map_map]; rfl
  exact List.map_injective_iff.2 (fun _ _ => Option.some.inj) hsome

/-- **The numbered graph keeps names and edges.**  Its nodes are the keys and the targets, each of
them once, in the order in which they first appear when each key is read before its targets.  The
index gives a name the number of the node that has this name, and has no other entries.  The edges,
read through the names of their ends, are those of the edge map, in order and with repetitions. -/
theorem numbered_keeps_names_and_edges (edges : EdgeMap) :
    edges.numbered.nodes.Nodup ∧
    (∀ x, x ∈ edges.numbered.nodes ↔ x ∈ edges.keys ∨ x ∈ edges.allTargets) ∧
    edges.numbered.nodes.Pairwise
      (fun x y => edges.namesInOrder.idxOf x < edges.namesInOrder.idxOf y) ∧
    (∀ (x : String) (i : Nat),
      edges.numbered.index[x]? = some i ↔ edges.numbered.nodes[i]? = some x) ∧
    edges.numbered.isConsistent = true ∧
    edges.numbered.edges.map edges.numbered.ends = edges.pairs.map some := by
  have h := edges.shows_numbered
  refine ⟨edges.nodup_nodes_numbered, fun x => ?_, ?_, h.index, h.isConsistent, h.edges⟩
  · rw [h.nodes, List.mem_eraseDups, mem_namesInOrder_iff]
  · rw [h.nodes]
    exact pairwise_idxOf_eraseDups edges.namesInOrder

end EdgeMap

end ModuleDeps
