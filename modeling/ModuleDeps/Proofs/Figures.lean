/-
The figures of an analysis agree with each other.

The figures are taken from different places: the list of records, the edge maps, the sets of nodes,
the cycles and the depths.  That they fit together is due to the builder, which neither loses nor
repeats an edge.  A pair of a source and a target that some internal record has is one internal
edge, and the edges are counted once by their sources and once by their targets.  The nodes are the
names that have a fan-in.  Every cycle has its warning, and no warning of another sort looks like
one.

Main definitions:

* `ModuleDeps.Graph.pairsOf` — the sources and targets of the records of a kind, each pair once;
* `ModuleDeps.AnalysisConfig.warnsOfCycle` — a warning is about a cycle.

Main results:

* `ModuleDeps.Graph.Image.toFinset_pairs`, `ModuleDeps.Graph.Image.nodup_pairs` — the edges are the
  pairs, and none stands twice;
* `ModuleDeps.Statistics.isGreatest_maxFanOut`, `ModuleDeps.Statistics.isGreatest_maxFanIn` — the
  greatest degrees;
* `ModuleDeps.AnalysisConfig.analyze_cases` — what an analysis returns, in terms of an image;
* `ModuleDeps.AnalysisConfig.length_cycles_analyze`,
  `ModuleDeps.AnalysisConfig.mem_names_depth_analyze` — its cycles and its depths;
* `ModuleDeps.AnalysisConfig.figures_of_analyze_agree` — **the figures agree**.
-/

import Mathlib
import ModuleDeps.Proofs.InternalNames
import ModuleDeps.Proofs.PartialResults
import ModuleDeps.Proofs.Tallies

set_option relaxedAutoImplicit false
set_option autoImplicit false

namespace ModuleDeps

/-! ### Greatest degrees -/

namespace Statistics

theorem foldl_max_eq_or_mem (ns : List Nat) (a : Nat) :
    ns.foldl max a = a ∨ ns.foldl max a ∈ ns := by
  induction ns generalizing a with
  | nil => exact Or.inl rfl
  | cons n ns ih =>
      rw [List.foldl_cons]
      rcases ih (max a n) with h | h
      · rcases Nat.le_total a n with hle | hle
        · rw [h, Nat.max_eq_right hle]
          exact Or.inr List.mem_cons_self
        · rw [h, Nat.max_eq_left hle]
          exact Or.inl rfl
      · exact Or.inr (List.mem_cons_of_mem _ h)

theorem le_greatest {ns : List Nat} {n : Nat} (h : n ∈ ns) : n ≤ greatest ns := by
  rw [greatest, List.foldl_max]
  exact Nat.le_trans (List.le_max?_getD_of_mem h) (Nat.le_max_right _ _)

/-- The greatest of some numbers is the greatest value of a function that has these values, and
perhaps zero. -/
theorem isGreatest_greatest {f : String → Nat} {ns : List Nat} (hns : ∀ n ∈ ns, ∃ x, f x = n)
    (hf : ∀ x, f x = 0 ∨ f x ∈ ns) : IsGreatest (Set.range f) (greatest ns) := by
  have hle : ∀ x, f x ≤ greatest ns := by
    intro x
    rcases hf x with h | h
    · omega
    · exact le_greatest h
  refine ⟨?_, ?_⟩
  · rcases foldl_max_eq_or_mem ns 0 with h | h
    · have hzero : greatest ns = 0 := h
      exact ⟨"", by have := hle ""; omega⟩
    · exact hns _ h
  · rintro _ ⟨x, rfl⟩
    exact hle x

theorem eq_zero_iff_of_isGreatest {f : String → Nat} {n : Nat} (h : IsGreatest (Set.range f) n) :
    n = 0 ↔ ∀ x, f x = 0 := by
  obtain ⟨⟨x, hx⟩, hle⟩ := h
  constructor
  · intro hn y
    have hy := hle ⟨y, rfl⟩
    omega
  · intro hall
    rw [← hx, hall x]

/-- The greatest fan-out is the greatest number of internal edges that leave a name. -/
theorem isGreatest_maxFanOut (g : Graph) :
    IsGreatest (Set.range fun x => g.internal.pairs.countP (·.1 = x)) (greatest (fanOuts g)) := by
  simp only [EdgeMap.countP_fst_pairs]
  refine isGreatest_greatest (fun n hn => ?_) fun x => ?_
  · obtain ⟨e, he, rfl⟩ := List.mem_map.1 (List.mem_filter.1 hn).1
    exact ⟨e.1, by rw [EdgeMap.targets_of_mem_entries he]⟩
  · rcases Nat.eq_zero_or_pos (g.internal.targets x).length with h | h
    · exact Or.inl h
    · right
      cases hx : g.internal.get? x with
      | none => simp [EdgeMap.targets, hx] at h
      | some ts =>
          rw [EdgeMap.targets_of_get? hx] at h ⊢
          refine List.mem_filter.2 ⟨?_, decide_eq_true h⟩
          exact List.mem_map.2 ⟨(x, ts), EdgeMap.mem_entries_iff.2 hx, rfl⟩

/-- The greatest fan-in is the greatest number of internal edges that enter a name. -/
theorem isGreatest_maxFanIn (g : Graph) :
    IsGreatest (Set.range fun y => g.internal.pairs.countP (·.2 = y))
      (greatest g.fanIn.values) := by
  simp only [EdgeMap.countP_snd_pairs]
  rw [Graph.fanIn, Graph.values_tally]
  refine isGreatest_greatest (fun n hn => ?_) fun y => ?_
  · obtain ⟨y, -, rfl⟩ := List.mem_map.1 hn
    exact ⟨y, rfl⟩
  · by_cases hy : y ∈ g.internal.allTargets
    · exact Or.inr (List.mem_map.2 ⟨y, Graph.mem_names_tally_iff.2 hy, rfl⟩)
    · exact Or.inl (List.count_eq_zero_of_not_mem hy)

/-- No element has a name under `f` exactly if there is no element. -/
theorem forall_countP_eq_zero_iff {α : Type} (f : α → String) (es : List α) :
    (∀ x, es.countP (f · = x) = 0) ↔ es = [] := by
  constructor
  · intro h
    refine List.eq_nil_iff_forall_not_mem.2 fun e he => ?_
    have hnone := List.countP_eq_zero.1 (h (f e)) e he
    simp at hnone
  · rintro rfl x
    rfl

/-! ### Kinds -/

/-- If every kind has been decided, the three counts are all records. -/
theorem length_eq_sum_countKind {records : List ImportRecord}
    (h : ∀ r ∈ records, r.kind ≠ .unknown) :
    records.length =
      countKind records .internal + countKind records .external + countKind records .stdlib := by
  induction records with
  | nil => rfl
  | cons r records ih =>
      have ih := ih fun x hx => h x (List.mem_cons_of_mem _ hx)
      have hr := h r List.mem_cons_self
      simp only [countKind] at ih
      simp only [countKind, List.countP_cons, List.length_cons]
      cases hkind : r.kind with
      | internal => simp; omega
      | external => simp; omega
      | stdlib => simp; omega
      | unknown => exact absurd hkind hr

end Statistics

/-! ### Edges and nodes of an image -/

namespace Graph

/-- The sources and targets of the records of a kind, each pair once. -/
def pairsOf (kind : DependencyKind) (records : List ImportRecord) : Finset (String × String) :=
  ((records.filter (·.kind == kind)).map fun r => (r.source, r.target)).toFinset

namespace Image

variable {g : Graph} {records : List ImportRecord}

theorem edge_iff (h : g.Image records) {kind : DependencyKind} {x y : String} :
    (g.edgesOf kind).Edge x y ↔ (x, y) ∈ pairsOf kind records := by
  rw [EdgeMap.Edge, h.targets, List.mem_eraseDups, targetsOf, recordsFrom, pairsOf,
    List.mem_toFinset]
  simp only [List.mem_map, List.mem_filter, beq_iff_eq, Prod.mk.injEq]
  constructor
  · rintro ⟨r, ⟨⟨hr, hsource⟩, hkind⟩, htarget⟩
    exact ⟨r, ⟨hr, hkind⟩, hsource, htarget⟩
  · rintro ⟨r, ⟨hr, hkind⟩, hsource, htarget⟩
    exact ⟨r, ⟨⟨hr, hsource⟩, hkind⟩, htarget⟩

/-- The edges of a kind are the pairs of its records. -/
theorem toFinset_pairs (h : g.Image records) (kind : DependencyKind) :
    (g.edgesOf kind).pairs.toFinset = pairsOf kind records := by
  ext ⟨x, y⟩
  rw [List.mem_toFinset, EdgeMap.mem_pairs_iff, h.edge_iff]

/-- No edge stands twice. -/
theorem nodup_pairs (h : g.Image records) (kind : DependencyKind) :
    (g.edgesOf kind).pairs.Nodup := by
  refine List.nodup_flatMap.2 ⟨fun e he => ?_, ?_⟩
  · have hnodup : e.2.Nodup := by
      rw [← EdgeMap.targets_of_mem_entries he, h.targets]
      exact nodup_eraseDups _
    exact hnodup.map fun a b hab => (Prod.mk.inj hab).2
  · -- pairs of different entries have different keys
    refine (List.pairwise_map.1 (g.edgesOf kind).nodup).imp fun hne p hp hp' => ?_
    obtain ⟨_, -, rfl⟩ := List.mem_map.1 hp
    obtain ⟨_, -, heq⟩ := List.mem_map.1 hp'
    exact hne (Prod.mk.inj heq).1.symm

theorem length_pairs (h : g.Image records) (kind : DependencyKind) :
    (g.edgesOf kind).pairs.length = (pairsOf kind records).card := by
  rw [← h.toFinset_pairs kind, List.toFinset_card_of_nodup (h.nodup_pairs kind)]

theorem mem_allTargets_iff (h : g.Image records) (kind : DependencyKind) {y : String} :
    y ∈ (g.edgesOf kind).allTargets ↔ y ∈ targetsOf kind records := by
  rw [EdgeMap.mem_allTargets_iff, targetsOf]
  constructor
  · rintro ⟨x, hxy⟩
    have hpair := h.edge_iff.1 hxy
    rw [pairsOf, List.mem_toFinset] at hpair
    obtain ⟨r, hr, heq⟩ := List.mem_map.1 hpair
    exact List.mem_map.2 ⟨r, hr, (Prod.mk.inj heq).2⟩
  · intro hy
    obtain ⟨r, hr, rfl⟩ := List.mem_map.1 hy
    refine ⟨r.source, h.edge_iff.2 ?_⟩
    rw [pairsOf, List.mem_toFinset]
    exact List.mem_map.2 ⟨r, hr, rfl⟩

/-- The internal nodes are the names with a fan-in. -/
theorem size_internalNodes (h : g.Image records) :
    g.internalNodes.size = g.fanIn.entries.length := by
  refine NameTable.size_eq_length_entries fun x => ?_
  rw [h.internalNodes, fanIn, mem_names_tally_iff]
  exact (h.mem_allTargets_iff .internal).symm

/-- The external nodes are the packages that are used. -/
theorem size_externalNodes (h : g.Image records) :
    g.externalNodes.size = g.externalUsage.length := by
  rw [length_externalUsage]
  refine NameTable.size_eq_length_entries fun x => ?_
  rw [h.externalNodes, mem_names_tally_iff]
  exact (h.mem_allTargets_iff .external).symm

end Image

/-- Computing cycles and depths leaves the edges and nodes as they are. -/
theorem edges_and_nodes_of_compute {g h : Graph} (hg : h = g ∨ h = g.compute) :
    h.internal = g.internal ∧ h.external = g.external ∧
      h.internalNodes = g.internalNodes ∧ h.externalNodes = g.externalNodes := by
  rcases hg with rfl | rfl
  · exact ⟨rfl, rfl, rfl, rfl⟩
  · exact ⟨rfl, rfl, rfl, rfl⟩

end Graph

/-! ### Analyses -/

namespace AnalysisConfig

/-- Is the warning about a cycle? -/
def warnsOfCycle (warning : String) : Bool :=
  "Circular dependency detected".toList.isPrefixOf warning.toList

theorem warnsOfCycle_cycleWarning (cycle : List String) :
    warnsOfCycle (cycleWarning cycle) = true := by
  have hsplit : "Circular dependency detected: " = "Circular dependency detected" ++ ": " := by
    decide +kernel
  unfold cycleWarning
  rw [hsplit, String.append_assoc, warnsOfCycle, List.isPrefixOf_iff_prefix, String.toList_append]
  exact List.prefix_append _ _

/-- A warning about a skipped module starts with another letter. -/
theorem not_warnsOfCycle_of_skipped (text : String) :
    warnsOfCycle ("Skipped module: " ++ text) = false := by
  have hcycle : "Circular dependency detected".toList.head? = some 'C' := by
    decide +kernel
  have hskipped : "Skipped module: ".toList.head? = some 'S' := by
    decide +kernel
  rw [warnsOfCycle, ← Bool.not_eq_true, List.isPrefixOf_iff_prefix, String.toList_append]
  rintro ⟨rest, hrest⟩
  have hhead := congrArg List.head? hrest
  rw [List.head?_append, List.head?_append, hcycle, hskipped] at hhead
  simp at hhead

theorem countP_warnsOfCycle {skipped : List String}
    (hskipped : ∀ warning ∈ skipped, ∃ text, warning = "Skipped module: " ++ text)
    (cycles : List (List String)) :
    (skipped ++ cycles.map cycleWarning).countP warnsOfCycle = cycles.length := by
  have hnone : skipped.countP warnsOfCycle = 0 := by
    refine List.countP_eq_zero.2 fun warning hwarning => ?_
    obtain ⟨text, rfl⟩ := hskipped warning hwarning
    rw [not_warnsOfCycle_of_skipped]
    decide
  have hall : (cycles.map cycleWarning).countP warnsOfCycle =
      (cycles.map cycleWarning).length := by
    refine List.countP_eq_length.2 fun warning hwarning => ?_
    obtain ⟨cycle, -, rfl⟩ := List.mem_map.1 hwarning
    exact warnsOfCycle_cycleWarning cycle
  rw [List.countP_append, hnone, hall, Nat.zero_add, List.length_map]

theorem exists_text_of_mem_skipWarnings {config : AnalysisConfig} {modules : List SourceModule}
    {warning : String} (h : warning ∈ config.skipWarnings modules) :
    ∃ text, warning = "Skipped module: " ++ text := by
  rw [skipWarnings] at h
  split at h
  · obtain ⟨m, -, hm⟩ := List.mem_filterMap.1 h
    obtain ⟨flaw, -, rfl⟩ := Option.map_eq_some_iff.1 hm
    exact ⟨_, rfl⟩
  · cases h

/-- Whether or not a module stops the work, the graph shows what has been recorded. -/
theorem image_addModules {b : Builder} (h : b.graph.Image b.records)
    (modules : List SourceModule) :
    (addModules b modules).1.graph.Image (addModules b modules).1.records := by
  induction modules generalizing b with
  | nil => exact h
  | cons m ms ih =>
      rw [addModules]
      cases m.flaw? with
      | none => exact ih (Builder.image_addModule h m)
      | some flaw => exact h

/-- **What an analysis returns**: an image of its records, with its cycles and depths if nothing has
stopped the work, and then a warning for each cycle behind those for skipped modules. -/
theorem analyze_cases (config : AnalysisConfig) (modules : List SourceModule) :
    let result := config.analyze modules
    ∃ (g : Graph) (skipped : List String), g.Image result.records ∧
      (∀ warning ∈ skipped, ∃ text, warning = "Skipped module: " ++ text) ∧
      (result.graph = g ∧ result.errors ≠ [] ∧ result.warnings = skipped ∨
        result.graph = g.compute ∧ result.errors = [] ∧
          result.warnings = skipped ++ g.compute.cycles.map cycleWarning) := by
  intro result
  by_cases hflawed : ∃ text ∈ config.excludePatterns, ∃ flaw, Glob.parse text = .error flaw
  · obtain ⟨_, -, flaw, -, hresult⟩ := analyze_of_flawed_pattern hflawed modules
    have hresult : result = _ := hresult
    rw [hresult]
    refine ⟨.empty, [], Graph.image_empty, by simp, Or.inl ⟨rfl, ?_, rfl⟩⟩
    exact List.cons_ne_nil _ _
  · have hpatterns : ∀ text ∈ config.excludePatterns, ∃ glob, Glob.parse text = .ok glob := by
      intro text htext
      cases hparse : Glob.parse text with
      | ok glob => exact ⟨glob, rfl⟩
      | error flaw => exact absurd ⟨text, htext, flaw, hparse⟩ hflawed
    have hresult : result = config.analyzeSelected _ _ := analyze_of_patterns hpatterns modules
    rw [hresult, analyzeSelected]
    have himage := image_addModules (Builder.image_start (.ofModules ⟨config.extraStdlib⟩
      (config.selected (config.remaining modules)))) (config.selected (config.remaining modules))
    have hskipped : ∀ warning ∈ config.skipWarnings (config.remaining modules),
        ∃ text, warning = "Skipped module: " ++ text :=
      fun _ h => exists_text_of_mem_skipWarnings h
    cases hadd : addModules (.start (.ofModules ⟨config.extraStdlib⟩
        (config.selected (config.remaining modules)))) (config.selected (config.remaining modules))
      with
    | mk b fault? =>
        rw [hadd] at himage
        cases fault? with
        | some fault =>
            exact ⟨b.graph, _, himage, hskipped, Or.inl ⟨rfl, List.cons_ne_nil _ _, rfl⟩⟩
        | none => exact ⟨b.graph, _, himage, hskipped, Or.inr ⟨rfl, rfl, rfl⟩⟩

/-- An analysis warns of each cycle that it returns, and of no other. -/
theorem length_cycles_analyze (config : AnalysisConfig) (modules : List SourceModule) :
    (config.analyze modules).graph.cycles.length =
      (config.analyze modules).warnings.countP warnsOfCycle := by
  obtain ⟨g, skipped, himage, hskipped, hcases⟩ := analyze_cases config modules
  rcases hcases with ⟨hgraph, -, hwarnings⟩ | ⟨hgraph, -, hwarnings⟩
  · -- nothing has been computed, and nothing has been said about cycles
    have hcount := countP_warnsOfCycle hskipped []
    rw [List.map_nil, List.append_nil] at hcount
    rw [hgraph, himage.cycles, hwarnings, hcount]
  · rw [hgraph, hwarnings, countP_warnsOfCycle hskipped]

/-- Without an error, the sources and the targets of the internal edges have a depth. -/
theorem mem_names_depth_analyze {config : AnalysisConfig} {modules : List SourceModule}
    (h : (config.analyze modules).errors = []) (x : String) :
    x ∈ (config.analyze modules).graph.depth.names ↔
      x ∈ (config.analyze modules).graph.internal.keys ∨
        x ∈ (config.analyze modules).graph.internalNodes.names := by
  obtain ⟨g, _, himage, -, hcases⟩ := analyze_cases config modules
  rcases hcases with ⟨-, hstopped, -⟩ | ⟨hgraph, -, -⟩
  · exact absurd h hstopped
  · rw [hgraph]
    have hnodes : x ∈ g.internalNodes.names ↔ x ∈ g.internal.allTargets :=
      (himage.internalNodes x).trans (himage.mem_allTargets_iff .internal).symm
    exact EdgeMap.mem_names_depths_iff.trans (or_congr_right hnodes.symm)

/-- **The figures of an analysis agree**, whether or not a fault has stopped it.  There are as many
records as the three kinds have together.  The fan-ins and the fan-outs both add up to the number of
different pairs of a source and a target that the internal records have, which are the internal
edges.  The unique modules are those with a fan-in, and the unique packages those that are used.
The greatest fan-out and fan-in are the greatest numbers of internal edges that leave and that enter
a name, and they are zero only if there is no internal edge.  There are as many cycles as warnings
of one.  Without an error, just the sources and the nodes of the internal edges have a depth. -/
theorem figures_of_analyze_agree (config : AnalysisConfig) (modules : List SourceModule) :
    let result := config.analyze modules
    let figures := result.statistics
    let edges := result.graph.internal.pairs
    let pairs := ((result.records.filter (·.kind == .internal)).map
      fun r => (r.source, r.target)).toFinset
    figures.total = result.records.length ∧
    figures.total = figures.internal + figures.external + figures.stdlib ∧
    result.graph.fanIn.values.sum = pairs.card ∧
    (result.graph.byFanOut.map Prod.snd).sum = pairs.card ∧
    edges.Nodup ∧ edges.toFinset = pairs ∧
    figures.uniqueInternal = result.graph.fanIn.entries.length ∧
    figures.uniqueExternal = result.graph.externalUsage.length ∧
    IsGreatest (Set.range fun x => edges.countP (·.1 = x)) figures.maxFanOut ∧
    IsGreatest (Set.range fun y => edges.countP (·.2 = y)) figures.maxFanIn ∧
    (figures.maxFanOut = 0 ↔ edges = []) ∧ (figures.maxFanIn = 0 ↔ edges = []) ∧
    figures.cycles = result.warnings.countP (fun warning =>
      "Circular dependency detected".toList.isPrefixOf warning.toList) ∧
    (result.errors = [] → ∀ x, x ∈ result.graph.depth.names ↔
      x ∈ result.graph.internal.keys ∨ x ∈ result.graph.internalNodes.names) := by
  intro result figures edges pairs
  obtain ⟨g, _, himage, -, hcases⟩ := analyze_cases config modules
  obtain ⟨hinternal, hexternal, hinternalNodes, hexternalNodes⟩ :=
    Graph.edges_and_nodes_of_compute (hcases.imp And.left And.left)
  have hfigures : figures = .ofGraph result.records result.graph :=
    statistics_analyze config modules
  have hedges : edges = g.internal.pairs := congrArg EdgeMap.pairs hinternal
  have hcard : edges.length = pairs.card := by
    rw [hedges]
    exact himage.length_pairs .internal
  have hfanIn : result.graph.fanIn = g.fanIn := by
    rw [Graph.fanIn, Graph.fanIn, hinternal]
  have husage : result.graph.externalUsage = g.externalUsage := by
    rw [Graph.externalUsage, Graph.externalUsage, hexternal]
  have hmaxOut := Statistics.isGreatest_maxFanOut result.graph
  have hmaxIn := Statistics.isGreatest_maxFanIn result.graph
  rw [hfigures]
  refine ⟨rfl, Statistics.length_eq_sum_countKind himage.kinds,
    (Graph.sum_values_fanIn result.graph).trans hcard,
    (Graph.sum_byFanOut result.graph).trans hcard, ?_, ?_, ?_, ?_, hmaxOut, hmaxIn,
    (Statistics.eq_zero_iff_of_isGreatest hmaxOut).trans
      (Statistics.forall_countP_eq_zero_iff Prod.fst edges),
    (Statistics.eq_zero_iff_of_isGreatest hmaxIn).trans
      (Statistics.forall_countP_eq_zero_iff Prod.snd edges),
    length_cycles_analyze config modules, mem_names_depth_analyze⟩
  · rw [hedges]
    exact himage.nodup_pairs .internal
  · rw [hedges]
    exact himage.toFinset_pairs .internal
  · rw [hfanIn, ← himage.size_internalNodes, ← hinternalNodes]
    rfl
  · rw [husage, ← himage.size_externalNodes, ← hexternalNodes]
    rfl

/-- Two modules import each other, one of them twice, and no fault stops the analysis: there are
three records of two edges, which close one cycle. -/
theorem figures_agree_on_repeated_import :
    let modules : List SourceModule :=
      [⟨"a", "", ["import b"]⟩, ⟨"b", "", ["import a", "import a"]⟩]
    let result := AnalysisConfig.default.analyze modules
    let figures := result.statistics
    figures.total = 3 ∧ figures.internal = 3 ∧
    result.graph.internal.pairs = [("a", "b"), ("b", "a")] ∧ result.graph.fanIn.values.sum = 2 ∧
    figures.maxFanOut = 1 ∧ figures.maxFanIn = 1 ∧ figures.cycles = 1 ∧
    result.errors = [] ∧ ∀ x, x ∈ result.graph.depth.names ↔
      x ∈ result.graph.internal.keys ∨ x ∈ result.graph.internalNodes.names := by
  intro modules result figures
  let project := Project.ofModules ⟨[]⟩ modules
  let r₁ : ImportRecord := ⟨"b", .internal, .module, "a", "import b", some "b", []⟩
  let r₂ : ImportRecord := ⟨"a", .internal, .module, "b", "import a", some "a", []⟩
  let b := [r₁, r₂, r₂].foldl Builder.addRecord (.start project)
  -- the table of spellings is opened by its theory, since it cannot be evaluated
  have hprocess : project.process "import b" "a" = [r₁] ∧
      project.process "import a" "b" = [r₂] := by
    have hparse : Import.parse "import b" "a" = [Import.newRecord .module "a" "import b" "b" []] ∧
        Import.parse "import a" "b" = [Import.newRecord .module "b" "import a" "a" []] := by
      decide
    rw [Project.process, hparse.1, Project.process, hparse.2]
    simp only [List.map_singleton, Project.settle, project, Project.spellings_ofModules,
      Dotted.Spellings.canonical?_ofNames_eq]
    decide
  have hb : (Builder.start project).addAll modules = b := by
    simp only [modules, b, Builder.addAll_cons, Builder.addAll_nil, Builder.addModule,
      Builder.recordsOf, List.flatMap_cons, List.flatMap_nil, Builder.start, hprocess.1,
      List.append_nil, List.foldl_cons, List.foldl_nil, Builder.addRecord, hprocess.2,
      List.cons_append, List.nil_append]
  have hresult : result.graph = b.graph.compute ∧ result.records = [r₁, r₂, r₂] := by
    have hselected : result = AnalysisConfig.default.analyzeSelected modules [] := rfl
    rw [hselected, analyzeSelected, addModules_of_valid (by decide)]
    exact ⟨congrArg (fun b => b.graph.compute) hb, congrArg Builder.records hb⟩
  have hfigures : figures = .ofGraph [r₁, r₂, r₂] b.graph.compute := by
    rw [← hresult.1, ← hresult.2]
    exact statistics_analyze .default modules
  have herrors : result.errors = [] := rfl
  obtain ⟨-, -, hfanIn, -, -, -, -, -, -, -, -, -, -, hdepth⟩ :=
    figures_of_analyze_agree .default modules
  refine ⟨?_, ?_, ?_, hfanIn.trans ?_, ?_, ?_, ?_, herrors, hdepth herrors⟩
  · rw [hfigures]
    rfl
  · rw [hfigures]
    rfl
  · rw [hresult.1]
    decide +kernel
  · rw [hresult.2]
    decide +kernel
  · rw [hfigures]
    decide +kernel
  · rw [hfigures]
    decide +kernel
  · rw [hfigures]
    decide +kernel

end AnalysisConfig

end ModuleDeps
