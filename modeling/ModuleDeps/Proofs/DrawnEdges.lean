/-
Which edges a drawing shows.

Edges between internal modules and the edges of cycles are all drawn.  Of the edges to packages only
a sample is: a module has room for three, and the drawing for eleven.  They are drawn by two loops,
one inside the other, that share the list of what is drawn, and both end as soon as there is no room
for an edge.  What they draw is said without them: the first eleven of the edges that come from
taking, module by module, the first three to declared packages.

Main definitions:

* `ModuleDeps.Dot.Sheet.drawnIn` — the edges that a sheet draws in some style;
* `ModuleDeps.Graph.candidates` — the edges to packages for which a module has room.

Main results:

* `ModuleDeps.Dot.drawEdges_eq`, `ModuleDeps.Dot.drawModules_eq` — what the two loops draw;
* `ModuleDeps.Graph.sampledExternals_eq` — the sample is the beginning of the candidates;
* `ModuleDeps.Graph.toDot_draws_edges` — **the edges that a drawing shows**.
-/

import ModuleDeps.Proofs.ClosedWalks
import ModuleDeps.Proofs.DotStatements
import ModuleDeps.Proofs.Tallies

set_option relaxedAutoImplicit false
set_option autoImplicit false

namespace ModuleDeps

namespace Dot

/-! ### The loops -/

/-- The inner loop fills the room that is left, and tells whether there was room for all edges. -/
theorem drawEdges_eq (source : String) (targets : List String) {drawn : List (String × String)}
    (h : drawn.length ≤ maxExternalEdges) :
    drawEdges source targets drawn =
      ((drawn ++ targets.map (source, ·)).take maxExternalEdges,
        decide (drawn.length + targets.length ≤ maxExternalEdges)) := by
  induction targets generalizing drawn with
  | nil =>
      rw [drawEdges, List.map_nil, List.append_nil, List.take_of_length_le h, List.length_nil,
        Nat.add_zero, decide_eq_true h]
  | cons target targets ih =>
      rw [drawEdges]
      by_cases hfull : maxExternalEdges ≤ drawn.length
      · have hlength : drawn.length = maxExternalEdges := Nat.le_antisymm h hfull
        have hmore : ¬drawn.length + (target :: targets).length ≤ maxExternalEdges := by
          rw [List.length_cons]
          omega
        rw [if_pos hfull, decide_eq_false hmore, ← hlength, List.take_left]
      · have hroom : (drawn ++ [(source, target)]).length ≤ maxExternalEdges := by
          rw [List.length_append, List.length_singleton]
          omega
        rw [if_neg hfull, ih hroom, List.append_assoc, List.length_append, List.length_singleton,
          Nat.add_assoc, Nat.add_comm 1]
        rfl

/-- The edges of a module to declared packages for which it has room. -/
def candidatesOf (isDeclared : String → Bool) (entry : String × List String) :
    List (String × String) :=
  ((entry.2.filter isDeclared).take maxEdgesPerModule).map (entry.1, ·)

/-- The outer loop draws the beginning of what comes from all modules. -/
theorem drawModules_eq (isDeclared : String → Bool) (modules : List (String × List String))
    {drawn : List (String × String)} (h : drawn.length ≤ maxExternalEdges) :
    drawModules isDeclared modules drawn =
      (drawn ++ modules.flatMap (candidatesOf isDeclared)).take maxExternalEdges := by
  induction modules generalizing drawn with
  | nil => rw [drawModules, List.flatMap_nil, List.append_nil, List.take_of_length_le h]
  | cons entry modules ih =>
      obtain ⟨source, targets⟩ := entry
      have hlength : ((targets.filter isDeclared).take maxEdgesPerModule).length =
          (candidatesOf isDeclared (source, targets)).length := (List.length_map _).symm
      rw [drawModules, drawEdges_eq _ _ h, hlength, List.flatMap_cons, ← List.append_assoc]
      by_cases hroom :
          drawn.length + (candidatesOf isDeclared (source, targets)).length ≤ maxExternalEdges
      · have hdrawn : (drawn ++ candidatesOf isDeclared (source, targets)).length ≤
            maxExternalEdges := by rwa [List.length_append]
        rw [decide_eq_true hroom, ← ih hdrawn]
        exact congrArg (drawModules isDeclared modules) (List.take_of_length_le hdrawn)
      · -- the inner loop has filled the room, and the outer loop ends too
        have hfull : maxExternalEdges ≤
            (drawn ++ candidatesOf isDeclared (source, targets)).length := by
          rw [List.length_append]
          omega
        rw [decide_eq_false hroom, List.take_append_of_le_length hfull]
        rfl

end Dot

/-! ### The sample -/

namespace Graph

open Dot

/-- For each module, the declared packages to which it has room for an edge. -/
def candidates (g : Graph) : EdgeMap where
  entries := g.external.entries.map fun e =>
    (e.1, (e.2.filter g.drawnExternals.contains).take maxEdgesPerModule)
  nodup := by simpa [Function.comp_def] using g.external.nodup

theorem targets_candidates (g : Graph) (source : String) :
    g.candidates.targets source =
      ((g.external.targets source).filter g.drawnExternals.contains).take maxEdgesPerModule := by
  have hmap := lookupEntry_map (fun _ (ts : List String) =>
    (ts.filter g.drawnExternals.contains).take maxEdgesPerModule) source g.external.entries
  have hget : g.candidates.get? source = (g.external.get? source).map fun ts =>
      (ts.filter g.drawnExternals.contains).take maxEdgesPerModule := hmap
  rw [EdgeMap.targets, EdgeMap.targets, hget]
  cases g.external.get? source with
  | none => rfl
  | some ts => rfl

theorem pairs_candidates (g : Graph) :
    g.candidates.pairs = g.external.entries.flatMap (candidatesOf g.drawnExternals.contains) :=
  List.flatMap_map ..

/-- The sample is the beginning of the candidates. -/
theorem sampledExternals_eq (g : Graph) :
    g.sampledExternals = g.candidates.pairs.take maxExternalEdges := by
  have hnone : ([] : List (String × String)).length ≤ maxExternalEdges := Nat.zero_le _
  rw [sampledExternals, drawModules_eq _ _ hnone, List.nil_append, pairs_candidates]

/-- An edge of the sample is an edge of the graph, and leads to a declared package. -/
theorem edge_of_mem_sampledExternals {g : Graph} {p : String × String}
    (h : p ∈ g.sampledExternals) : g.external.Edge p.1 p.2 ∧ p.2 ∈ g.drawnExternals := by
  rw [sampledExternals_eq] at h
  have hedge : g.candidates.Edge p.1 p.2 := EdgeMap.mem_pairs_iff.1 (List.mem_of_mem_take h)
  rw [EdgeMap.Edge, targets_candidates] at hedge
  obtain ⟨hmem, hdeclared⟩ := List.mem_filter.1 (List.mem_of_mem_take hedge)
  exact ⟨hmem, List.contains_iff_mem.1 hdeclared⟩

/-- No module has more edges in the sample than it has room for. -/
theorem countP_sampledExternals_le (g : Graph) (source : String) :
    g.sampledExternals.countP (·.1 = source) ≤ maxEdgesPerModule := by
  rw [sampledExternals_eq]
  calc (g.candidates.pairs.take maxExternalEdges).countP (·.1 = source)
      ≤ g.candidates.pairs.countP (·.1 = source) := (List.take_sublist _ _).countP_le
    _ = (g.candidates.targets source).length := EdgeMap.countP_fst_pairs _ _
    _ ≤ maxEdgesPerModule := by
        rw [targets_candidates]
        exact List.length_take_le _ _

theorem length_sampledExternals_le (g : Graph) : g.sampledExternals.length ≤ maxExternalEdges := by
  rw [sampledExternals_eq]
  exact List.length_take_le _ _

/-- The declared packages are the smallest ones. -/
theorem lt_of_notMem_drawnExternals {g : Graph} {name : String} (h : name ∈ g.externalNodes.names)
    (hname : name ∉ g.drawnExternals) :
    g.drawnExternals.length = maxExternalNodes ∧ ∀ d ∈ g.drawnExternals, d < name := by
  have hsplit := List.take_append_drop maxExternalNodes g.externalNodes.names
  have hlater : name ∈ g.externalNodes.names.drop maxExternalNodes := by
    rw [← hsplit] at h
    exact (List.mem_append.1 h).resolve_left hname
  have hsorted := g.externalNodes.sorted
  rw [← hsplit] at hsorted
  refine ⟨?_, fun d hd => (List.pairwise_append.1 hsorted).2.2 d hd name hlater⟩
  have hlength := List.length_pos_of_mem hlater
  rw [List.length_drop] at hlength
  rw [drawnExternals, List.length_take]
  omega

end Graph

/-! ### Edges by style -/

namespace Dot

/-- The ends of the edge that a statement draws in some style. -/
def Statement.drawn? (style : List (String × Token)) : Statement → Option (String × String)
  | .edge source target attributes =>
    if attributes = style then some (source, target) else none
  | _ => none

/-- The edges that a sheet draws in some style, in order. -/
def Sheet.drawnIn (sheet : Sheet) (style : List (String × Token)) : List (String × String) :=
  sheet.statements.filterMap (Statement.drawn? style)

theorem drawn?_nodes (style : List (String × Token)) (nodes : List Node) :
    (nodes.map Node.statement).filterMap (Statement.drawn? style) = [] := by
  rw [List.filterMap_map]
  exact List.filterMap_eq_nil_iff.2 fun node _ => rfl

theorem drawn?_edges (style style' : List (String × Token)) (edges : List (String × String)) :
    (edges.map (edgeIn style')).filterMap (Statement.drawn? style) =
      if style' = style then edges else [] := by
  rw [List.filterMap_map]
  split
  · next h =>
    have hsome : Statement.drawn? style ∘ edgeIn style' = some := by
      funext p
      exact if_pos h
    rw [hsome, List.filterMap_some]
  · next h => exact List.filterMap_eq_nil_iff.2 fun p _ => if_neg h

/-- Each style is used for one sort of edges. -/
theorem drawnIn_sheetOf (g : Graph) (style : List (String × Token)) :
    (sheetOf g).drawnIn style =
      (if internalStyle = style then g.internal.pairs else []) ++
      (if externalStyle = style then externalEnds g else []) ++
      (if cycleStyle = style then g.cycles.flatMap steps else []) := by
  have hpreamble : preamble.filterMap (Statement.drawn? style) = [] := rfl
  rw [Sheet.drawnIn, statements_sheetOf]
  simp only [List.filterMap_append, hpreamble, drawn?_nodes, drawn?_edges, List.nil_append]

theorem drawnIn_internalStyle (g : Graph) :
    (sheetOf g).drawnIn internalStyle = g.internal.pairs := by
  simp [drawnIn_sheetOf, internalStyle, externalStyle, cycleStyle]

theorem drawnIn_externalStyle (g : Graph) : (sheetOf g).drawnIn externalStyle = externalEnds g := by
  simp [drawnIn_sheetOf, internalStyle, externalStyle, cycleStyle]

theorem drawnIn_cycleStyle (g : Graph) :
    (sheetOf g).drawnIn cycleStyle = g.cycles.flatMap steps := by
  simp [drawnIn_sheetOf, internalStyle, externalStyle, cycleStyle]

/-- There are no other styles. -/
theorem style_of_mem_statements {g : Graph} {source target : String}
    {style : List (String × Token)} (h : .edge source target style ∈ (sheetOf g).statements) :
    style ∈ [internalStyle, externalStyle, cycleStyle] := by
  have hpreamble : .edge source target style ∉ preamble := by simp [preamble]
  have hnode : ∀ nodes : List Node, .edge source target style ∉ nodes.map Node.statement := by
    intro nodes hmem
    obtain ⟨node, -, heq⟩ := List.mem_map.1 hmem
    cases heq
  have hedge : ∀ (style' : List (String × Token)) (edges : List (String × String)),
      .edge source target style ∈ edges.map (edgeIn style') → style = style' := by
    intro style' edges hmem
    obtain ⟨edge, -, heq⟩ := List.mem_map.1 hmem
    cases heq
    rfl
  simp only [statements_sheetOf, List.mem_append, hpreamble, hnode, false_or] at h
  rcases h with (h | h) | h
  · rw [hedge _ _ h]
    decide
  · rw [hedge _ _ h]
    decide
  · rw [hedge _ _ h]
    decide

/-- A declared package has a node in its part of the drawing. -/
theorem exists_node_of_mem_drawnExternals {g : Graph} {name : String}
    (h : name ∈ g.drawnExternals) :
    ∃ attributes, .node (externalId name) attributes ∈ (sheetOf g).part "External modules" := by
  rw [part_externalModules]
  exact ⟨_, List.mem_map_of_mem (List.mem_map_of_mem h)⟩

/-- The neighbouring pairs of a list are the pairs of its elements and their successors. -/
theorem steps_eq_zip (names : List String) : steps names = names.zip names.tail := by
  fun_induction steps names with
  | case1 a b rest ih => rw [ih, List.tail_cons, List.tail_cons, List.zip_cons_cons]
  | case2 names h =>
      cases names with
      | nil => rfl
      | cons a rest =>
          cases rest with
          | nil => rfl
          | cons b rest => exact absurd rfl (h a b rest)

end Dot

/-! ### What a drawing shows -/

namespace Graph

open Dot

/-- **The edges that a drawing shows.**  The text of the drawing of any graph can be read.  It draws
in blue the internal edges, each once and in order, and in the style of cycles the neighbouring
pairs of the cycles, each once and in order.  Of the edges to packages it draws the first eleven of
those that come from taking, source by source, the first three to the twenty smallest packages; so
they are edges of the graph and lead to declared nodes, no source has more than three, and there are
at most eleven.  Nothing else is drawn. -/
theorem toDot_draws_edges (g : Graph) :
    ∃ sheet, read? g.toDot = some sheet ∧
      let declared := g.externalNodes.names.take 20
      (∀ x ∈ g.externalNodes.names, x ∉ declared → declared.length = 20 ∧ ∀ d ∈ declared, d < x) ∧
      sheet.drawnIn externalStyle = ((g.external.entries.flatMap fun e =>
        ((e.2.filter declared.contains).take 3).map (e.1, ·)).take 11).map
          (fun p => (p.1, "ext:" ++ p.2)) ∧
      (∀ p ∈ sheet.drawnIn externalStyle, ∃ name, p.2 = "ext:" ++ name ∧
        g.external.Edge p.1 name ∧
        ∃ attributes, .node p.2 attributes ∈ sheet.part "External modules") ∧
      (∀ source, (sheet.drawnIn externalStyle).countP (·.1 = source) ≤ 3) ∧
      (sheet.drawnIn externalStyle).length ≤ 11 ∧
      sheet.drawnIn internalStyle = g.internal.pairs ∧
      sheet.drawnIn cycleStyle = g.cycles.flatMap (fun cycle => cycle.zip cycle.tail) ∧
      (∀ source target style, .edge source target style ∈ sheet.statements →
        style ∈ [internalStyle, externalStyle, cycleStyle]) := by
  refine ⟨sheetOf g, read?_toDot g, ?_, ?_, ?_, ?_, ?_, drawnIn_internalStyle g, ?_, ?_⟩
  · exact fun x hx => lt_of_notMem_drawnExternals hx
  · rw [drawnIn_externalStyle, externalEnds, sampledExternals_eq, pairs_candidates]
    rfl
  · intro p hp
    rw [drawnIn_externalStyle] at hp
    obtain ⟨q, hq, rfl⟩ := List.mem_map.1 hp
    obtain ⟨hedge, hdeclared⟩ := edge_of_mem_sampledExternals hq
    exact ⟨q.2, rfl, hedge, exists_node_of_mem_drawnExternals hdeclared⟩
  · intro source
    rw [drawnIn_externalStyle, externalEnds, List.countP_map]
    exact countP_sampledExternals_le g source
  · rw [drawnIn_externalStyle, externalEnds, List.length_map]
    exact length_sampledExternals_le g
  · rw [drawnIn_cycleStyle]
    exact List.flatMap_congr fun cycle _ => steps_eq_zip cycle
  · exact fun source target style => style_of_mem_statements

end Graph

end ModuleDeps
