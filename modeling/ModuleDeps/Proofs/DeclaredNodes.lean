/-
Which ends of edges a drawing declares.

A drawing declares the modules at the ends of internal edges, and the first twenty packages.  So
both ends of an internal edge and of an edge of a cycle are declared among the modules, and the
package at the end of a dashed edge is declared among the packages.  Two things can go wrong.  The
source of a dashed edge may be at no end of an internal edge, and then it is not declared at all.
And the name of a module may be the identifier of a package, which is then declared in both parts.
The drawing of an analysis declares every end once, and in the right part, exactly when neither
happens.

Main definitions:

* `ModuleDeps.Dot.Sheet.DeclaresOnce` — one node of a sheet declares an identifier, and it stands in
  the given part;
* `ModuleDeps.Dot.Sheet.DeclaresEnds` — this holds for all ends of edges;
* `ModuleDeps.EdgeMap.IsEnd` — a name is at an end of an edge.

Main results:

* `ModuleDeps.Dot.countP_statements` — how many nodes declare an identifier;
* `ModuleDeps.Dot.declaresOnce_internal_iff`, `ModuleDeps.Dot.declaresOnce_external_iff` — which
  identifiers are declared once;
* `ModuleDeps.Graph.Image.mem_internalModules_iff` — the declared modules are the ends of edges;
* `ModuleDeps.AnalysisConfig.toDot_declares_ends_iff` — **when all ends are declared**.
-/

import Mathlib
import ModuleDeps.Proofs.CycleReports
import ModuleDeps.Proofs.DrawnEdges
import ModuleDeps.Proofs.Figures

set_option relaxedAutoImplicit false
set_option autoImplicit false

namespace ModuleDeps

namespace Dot

/-! ### Declarations -/

/-- Does the statement declare the identifier? -/
def Statement.declares (id : String) : Statement → Bool
  | .node id' _ => id' == id
  | _ => false

namespace Sheet

/-- Exactly one node declares the identifier, and it stands below the heading. -/
def DeclaresOnce (sheet : Sheet) (title id : String) : Prop :=
  sheet.statements.countP (Statement.declares id) = 1 ∧
    (sheet.part title).countP (Statement.declares id) = 1

/-- The ends of the edges between modules: those of internal edges, and those of cycles. -/
def internalEnds (sheet : Sheet) : List String :=
  (sheet.drawnIn internalStyle ++ sheet.drawnIn cycleStyle).flatMap fun p => [p.1, p.2]

/-- The modules at which edges to packages start. -/
def externalSources (sheet : Sheet) : List String :=
  (sheet.drawnIn externalStyle).map Prod.fst

/-- The packages at which edges end. -/
def externalTargets (sheet : Sheet) : List String :=
  (sheet.drawnIn externalStyle).map Prod.snd

/-- Every end of an edge is declared once: a module among the modules, and a package among the
packages. -/
structure DeclaresEnds (sheet : Sheet) : Prop where
  /-- The modules at the ends of edges between modules. -/
  internalEnds : ∀ x ∈ sheet.internalEnds, sheet.DeclaresOnce "Internal modules" x
  /-- The modules at which edges to packages start. -/
  externalSources : ∀ x ∈ sheet.externalSources, sheet.DeclaresOnce "Internal modules" x
  /-- The packages at which edges end. -/
  externalTargets : ∀ x ∈ sheet.externalTargets, sheet.DeclaresOnce "External modules" x

end Sheet

theorem countP_declares_nodes (nodes : List Node) (x : String) :
    (nodes.map Node.statement).countP (Statement.declares x) = (nodes.map Node.id).count x := by
  rw [List.count, List.countP_map, List.countP_map]
  rfl

theorem countP_declares_edges (style : List (String × Token)) (edges : List (String × String))
    (x : String) : (edges.map (edgeIn style)).countP (Statement.declares x) = 0 := by
  rw [List.countP_map]
  exact List.countP_eq_zero.2 fun edge _ => Bool.false_ne_true

theorem ids_internalNodes (g : Graph) :
    g.drawing.internalNodes.map Node.id = g.internalModules.names := by
  rw [Graph.drawing, List.map_map]
  exact List.map_id _

theorem ids_externalNodes (g : Graph) :
    g.drawing.externalNodes.map Node.id = g.drawnExternals.map externalId := by
  rw [Graph.drawing, List.map_map]
  rfl

theorem externalId_injective : Function.Injective externalId := by
  intro a b h
  exact (String.append_right_inj "ext:").1 h

theorem nodup_ids_externalNodes (g : Graph) : (g.drawnExternals.map externalId).Nodup :=
  (g.externalNodes.nodup_names.sublist (List.take_sublist _ _)).map externalId_injective

/-- A module is declared once among the modules. -/
theorem countP_internalModules (g : Graph) (x : String) :
    ((sheetOf g).part "Internal modules").countP (Statement.declares x) =
      if x ∈ g.internalModules.names then 1 else 0 := by
  rw [part_internalModules, countP_declares_nodes, ids_internalNodes]
  exact g.internalModules.nodup_names.count

/-- A package is declared once among the packages. -/
theorem countP_externalModules (g : Graph) (x : String) :
    ((sheetOf g).part "External modules").countP (Statement.declares x) =
      if x ∈ g.drawnExternals.map externalId then 1 else 0 := by
  rw [part_externalModules, countP_declares_nodes, ids_externalNodes]
  exact (nodup_ids_externalNodes g).count

/-- All nodes stand in these two parts. -/
theorem countP_statements (g : Graph) (x : String) :
    (sheetOf g).statements.countP (Statement.declares x) =
      ((sheetOf g).part "Internal modules").countP (Statement.declares x) +
      ((sheetOf g).part "External modules").countP (Statement.declares x) := by
  have hpreamble : preamble.countP (Statement.declares x) = 0 := rfl
  rw [statements_sheetOf, part_internalModules, part_externalModules]
  simp only [List.countP_append, hpreamble, countP_declares_edges, Nat.zero_add, Nat.add_zero]

theorem count_eq_one_iff {p q : Prop} [Decidable p] [Decidable q] :
    (if p then 1 else 0) + (if q then 1 else 0) = 1 ∧ (if p then 1 else 0) = 1 ↔ p ∧ ¬q := by
  by_cases hp : p
  · by_cases hq : q
    · simp [hp, hq]
    · simp [hp, hq]
  · simp [hp]

theorem declaresOnce_internal_iff {g : Graph} {x : String} :
    (sheetOf g).DeclaresOnce "Internal modules" x ↔
      x ∈ g.internalModules.names ∧ x ∉ g.drawnExternals.map externalId := by
  rw [Sheet.DeclaresOnce, countP_statements, countP_internalModules, countP_externalModules]
  exact count_eq_one_iff

theorem declaresOnce_external_iff {g : Graph} {x : String} :
    (sheetOf g).DeclaresOnce "External modules" x ↔
      x ∈ g.drawnExternals.map externalId ∧ x ∉ g.internalModules.names := by
  rw [Sheet.DeclaresOnce, countP_statements, countP_internalModules, countP_externalModules,
    Nat.add_comm]
  exact count_eq_one_iff

/-- Every dashed edge ends at a declared package. -/
theorem mem_ids_of_mem_externalTargets {g : Graph} {x : String}
    (h : x ∈ (sheetOf g).externalTargets) : x ∈ g.drawnExternals.map externalId := by
  rw [Sheet.externalTargets, drawnIn_externalStyle] at h
  obtain ⟨p, hp, rfl⟩ := List.mem_map.1 h
  obtain ⟨q, hq, rfl⟩ := List.mem_map.1 hp
  exact List.mem_map_of_mem (Graph.edge_of_mem_sampledExternals hq).2

/-- The neighbouring pairs of a walk are edges. -/
theorem edge_of_mem_steps {edges : EdgeMap} {names : List String} (h : names.IsChain edges.Edge) :
    ∀ p ∈ steps names, edges.Edge p.1 p.2 := by
  fun_induction steps names with
  | case1 a b rest ih =>
      obtain ⟨hab, hrest⟩ := List.isChain_cons_cons.1 h
      exact List.forall_mem_cons.2 ⟨hab, ih hrest⟩
  | case2 names hshort => simp

end Dot

/-! ### The ends of edges -/

namespace EdgeMap

/-- The name is at an end of some edge. -/
def IsEnd (edges : EdgeMap) (x : String) : Prop :=
  ∃ y, edges.Edge x y ∨ edges.Edge y x

end EdgeMap

namespace Graph

open Dot

/-- The declared modules are the ends of internal edges. -/
theorem Image.mem_internalModules_iff {g : Graph} {records : List ImportRecord}
    (h : g.Image records) {x : String} :
    x ∈ g.internalModules.names ↔ g.internal.IsEnd x := by
  have htargets : x ∈ g.internalNodes.names ↔ ∃ y, g.internal.Edge y x := by
    rw [h.internalNodes, ← h.mem_allTargets_iff .internal]
    exact EdgeMap.mem_allTargets_iff
  have hkeys : x ∈ g.internal.keys ↔ ∃ y, g.internal.Edge x y := by
    constructor
    · intro hx
      have hsource : x ∈ (sourcesOf .internal records).eraseDups := h.keys .internal ▸ hx
      obtain ⟨r, hr, rfl⟩ := List.mem_map.1 (List.mem_eraseDups.1 hsource)
      have hpair : (r.source, r.target) ∈ pairsOf .internal records :=
        List.mem_toFinset.2 (List.mem_map.2 ⟨r, hr, rfl⟩)
      have hedge : (g.edgesOf .internal).Edge r.source r.target := h.edge_iff.2 hpair
      exact ⟨r.target, hedge⟩
    · rintro ⟨y, hy⟩
      exact EdgeMap.mem_keys_of_mem_targets hy
  rw [internalModules, NameSet.mem_names_ofList, List.mem_append, hkeys, htargets, EdgeMap.IsEnd,
    exists_or]

/-- In the drawing of a graph whose cycles are walks, the ends of edges between modules are the ends
of internal edges. -/
theorem mem_internalEnds_iff {g : Graph}
    (hcycles : ∀ cycle ∈ g.cycles, cycle.IsChain g.internal.Edge) {x : String} :
    x ∈ (sheetOf g).internalEnds ↔ g.internal.IsEnd x := by
  rw [Sheet.internalEnds, drawnIn_internalStyle, drawnIn_cycleStyle, List.mem_flatMap]
  constructor
  · rintro ⟨p, hp, hx⟩
    have hedge : g.internal.Edge p.1 p.2 := by
      rcases List.mem_append.1 hp with hp | hp
      · exact EdgeMap.mem_pairs_iff.1 hp
      · obtain ⟨cycle, hcycle, hstep⟩ := List.mem_flatMap.1 hp
        exact edge_of_mem_steps (hcycles cycle hcycle) p hstep
    rcases List.mem_cons.1 hx with rfl | hx
    · exact ⟨p.2, Or.inl hedge⟩
    · rw [List.mem_singleton.1 hx]
      exact ⟨p.1, Or.inr hedge⟩
  · rintro ⟨y, hedge | hedge⟩
    · exact ⟨(x, y), List.mem_append_left _ (EdgeMap.mem_pairs_iff.2 hedge), by simp⟩
    · exact ⟨(y, x), List.mem_append_left _ (EdgeMap.mem_pairs_iff.2 hedge), by simp⟩

/-- When the drawing of a graph declares all ends of edges, if its modules are the ends of internal
edges and its cycles are walks. -/
theorem declaresEnds_iff {g : Graph}
    (hmodules : ∀ x, x ∈ g.internalModules.names ↔ g.internal.IsEnd x)
    (hcycles : ∀ cycle ∈ g.cycles, cycle.IsChain g.internal.Edge) :
    (sheetOf g).DeclaresEnds ↔
      (∀ x ∈ (sheetOf g).externalSources, g.internal.IsEnd x) ∧
      ∀ name ∈ g.drawnExternals, ¬g.internal.IsEnd (externalId name) := by
  constructor
  · rintro ⟨hends, hsources, -⟩
    refine ⟨fun x hx => (hmodules x).1 (declaresOnce_internal_iff.1 (hsources x hx)).1, ?_⟩
    intro name hname hend
    -- a module with the identifier of a package is at the end of an internal edge
    have honce := hends _ ((mem_internalEnds_iff hcycles).2 hend)
    exact (declaresOnce_internal_iff.1 honce).2 (List.mem_map_of_mem hname)
  · rintro ⟨hsources, hclash⟩
    have hmodule : ∀ x, g.internal.IsEnd x → (sheetOf g).DeclaresOnce "Internal modules" x := by
      intro x hx
      refine declaresOnce_internal_iff.2 ⟨(hmodules x).2 hx, fun hmem => ?_⟩
      obtain ⟨name, hname, rfl⟩ := List.mem_map.1 hmem
      exact hclash name hname hx
    refine ⟨fun x hx => hmodule x ((mem_internalEnds_iff hcycles).1 hx),
      fun x hx => hmodule x (hsources x hx), fun x hx => ?_⟩
    have hid := mem_ids_of_mem_externalTargets hx
    refine declaresOnce_external_iff.2 ⟨hid, fun hmem => ?_⟩
    obtain ⟨name, hname, rfl⟩ := List.mem_map.1 hid
    exact hclash name hname ((hmodules _).1 hmem)

end Graph

/-! ### Drawings of analyses -/

namespace AnalysisConfig

open Dot

/-- The modules of the graph of an analysis are the ends of its internal edges, and its cycles are
walks. -/
theorem modules_and_cycles_of_analyze (config : AnalysisConfig) (modules : List SourceModule) :
    let g := (config.analyze modules).graph
    (∀ x, x ∈ g.internalModules.names ↔ g.internal.IsEnd x) ∧
      ∀ cycle ∈ g.cycles, cycle.IsChain g.internal.Edge := by
  obtain ⟨g, skipped, himage, -, hcases⟩ := analyze_cases config modules
  rcases hcases with ⟨hgraph, -, -⟩ | ⟨hgraph, -, -⟩
  · rw [hgraph]
    refine ⟨fun x => himage.mem_internalModules_iff, ?_⟩
    rw [himage.cycles]
    simp
  · rw [hgraph]
    exact ⟨fun x => himage.mem_internalModules_iff,
      fun cycle hcycle => (EdgeMap.isClosedWalk_of_mem_cycles hcycle).1⟩

/-- **When all ends are declared.**  The text of the drawing of any analysis can be read.  Among the
modules it declares once each end of an internal edge and of an edge of a cycle, and among the
packages once each package at which an edge ends.  All ends of edges are declared by one node of the
text, and in the right part, exactly when each module at which an edge to a package starts is also
at an end of an internal edge, and no such end has the identifier of one of the twenty packages. -/
theorem toDot_declares_ends_iff (config : AnalysisConfig) (modules : List SourceModule) :
    let g := (config.analyze modules).graph
    ∃ sheet, read? g.toDot = some sheet ∧
      (∀ x ∈ sheet.internalEnds,
        (sheet.part "Internal modules").countP (Statement.declares x) = 1) ∧
      (∀ x ∈ sheet.externalTargets,
        (sheet.part "External modules").countP (Statement.declares x) = 1) ∧
      (sheet.DeclaresEnds ↔
        (∀ x ∈ sheet.externalSources, g.internal.IsEnd x) ∧
        ∀ name ∈ g.externalNodes.names.take 20, ¬g.internal.IsEnd ("ext:" ++ name)) := by
  intro g
  obtain ⟨hmodules, hcycles⟩ := modules_and_cycles_of_analyze config modules
  refine ⟨sheetOf g, read?_toDot g, ?_, ?_, Graph.declaresEnds_iff hmodules hcycles⟩
  · intro x hx
    have hend := (Graph.mem_internalEnds_iff hcycles).1 hx
    rw [countP_internalModules, if_pos ((hmodules x).2 hend)]
  · intro x hx
    rw [countP_externalModules, if_pos (mem_ids_of_mem_externalTargets hx)]

/-- A module that imports a package only, and that nothing imports, is the source of an edge, and no
node declares it. -/
theorem toDot_omits_lone_source :
    let g := (AnalysisConfig.default.analyze [⟨"a", "", ["import requests"]⟩]).graph
    ∃ sheet, read? g.toDot = some sheet ∧ sheet.drawnIn externalStyle = [("a", "ext:requests")] ∧
      sheet.statements.countP (Statement.declares "a") = 0 ∧ ¬sheet.DeclaresEnds := by
  intro g
  have hdrawn : (sheetOf g).drawnIn externalStyle = [("a", "ext:requests")] := by decide +kernel
  have hnone : (sheetOf g).statements.countP (Statement.declares "a") = 0 := by decide +kernel
  refine ⟨sheetOf g, read?_toDot g, hdrawn, hnone, fun hends => ?_⟩
  have hsource : "a" ∈ (sheetOf g).externalSources := by
    rw [Sheet.externalSources, hdrawn]
    exact List.mem_singleton_self _
  have honce := (hends.externalSources "a" hsource).1
  rw [hnone] at honce
  cases honce

end AnalysisConfig

end ModuleDeps
