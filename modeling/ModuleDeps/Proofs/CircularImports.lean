/-
Circular imports are never missed.

Modules that import each other in a ring, each naming the next one in full, are found by an analysis
whatever else the project holds.  The way leads through all its parts.  Each statement is read as
one that imports the full name, the name is internal and stands for the module that has it, and the
graph gets the edge.  The edges make a closed walk, and a closed walk makes the search find a cycle
and puts its names into one group.

Main definitions:

* `ModuleDeps.Dotted.IsIdent` — all segments of a name are identifiers;
* `ModuleDeps.SourceModule.Imports` — a module has a statement that imports another one by its full
  name.

Main results:

* `ModuleDeps.AnalysisConfig.analyze_of_valid` — the result of an analysis that nothing stops;
* `ModuleDeps.AnalysisConfig.edge_of_imports` — an import of a module by its full name is an edge;
* `ModuleDeps.AnalysisConfig.analyze_finds_circular_imports` — **a ring of imports is found**.
-/

import ModuleDeps.Proofs.Groups
import ModuleDeps.Proofs.ImportReading
import ModuleDeps.Proofs.InternalNames
import ModuleDeps.Proofs.PartialResults

set_option relaxedAutoImplicit false
set_option autoImplicit false

namespace ModuleDeps

/-! ### Statements with a full name -/

/-- Are all segments of the name identifiers? -/
def Dotted.IsIdent (name : String) : Prop :=
  ∀ seg ∈ segments name, Import.Ident seg.toList

instance (name : String) : Decidable (Dotted.IsIdent name) :=
  inferInstanceAs (Decidable (∀ seg ∈ Dotted.segments name, Import.Ident seg.toList))

/-- Some statement of the module is `import` with the name, or `from` the name `import` with an
identifier. -/
def SourceModule.Imports (m : SourceModule) (name : String) : Prop :=
  "import " ++ name ∈ m.imports ∨
    ∃ item : String, Import.Ident item.toList ∧ "from " ++ name ++ " import " ++ item ∈ m.imports

namespace Import

open Text

theorem cutAt_ne_nil (name : String) : cutAt '.' name.toList ≠ [] :=
  cutWhere_ne_nil _ _

/-- The pieces of a dotted identifier are identifiers. -/
theorem ident_of_mem_cutAt {name : String} (h : Dotted.IsIdent name) :
    ∀ id ∈ cutAt '.' name.toList, Ident id := by
  intro id hid
  have := h (String.ofList id) (List.mem_map_of_mem hid)
  rwa [String.toList_ofList] at this

/-- A dotted identifier is a path. -/
theorem path_of_isIdent {name : String} (h : Dotted.IsIdent name) : Path name.toList := by
  have := Path.names 0 (cutAt_ne_nil name) (ident_of_mem_cutAt h)
  rwa [glue_cutAt, List.replicate_zero, List.nil_append] at this

/-- A dotted identifier is no relative name. -/
theorem form_newRecord {name : String} (h : Dotted.IsIdent name) (absolute : ImportForm)
    (source text : String) (items : List String) :
    (newRecord absolute source text name items).form = absolute := by
  obtain ⟨c, cs, hglue, hc⟩ := exists_glue_eq_cons (cutAt_ne_nil name) (ident_of_mem_cutAt h)
  rw [glue_cutAt] at hglue
  rw [newRecord, formOf, hglue, List.head?_cons, if_neg (by simpa using hc)]

/-- A name stands for itself where an alias may follow. -/
theorem aliased_self {P : List Char → Prop} {name : String} (h : P name.toList) :
    Aliased P name.toList name := by
  have := Aliased.plain isGap_nil h isGap_nil
  rwa [List.nil_append, List.append_nil, String.ofList_toList] at this

/-- The statement `import` with a path imports this path. -/
theorem derives_import {path : String} (h : Path path.toList) :
    Derives (trim ("import " ++ path).toList) (.modules [path]) := by
  have htext : ("import " ++ path).toList = "import".toList ++ [' '] ++ path.toList := by
    simp
  rw [htext, trim_of_isSolid_ends (by decide) h.isSolid]
  exact .modules (by decide) (.last (aliased_self h))

/-- The statement `from` with a path and `import` with an identifier imports from this path. -/
theorem derives_from {path item : String} (h : Path path.toList) (hitem : Ident item.toList) :
    Derives (trim ("from " ++ path ++ " import " ++ item).toList) (.items path [item]) := by
  have htext : ("from " ++ path ++ " import " ++ item).toList =
      "from".toList ++ ([' '] ++ path.toList ++ [' '] ++ "import".toList ++ [' ']) ++
        item.toList := by
    simp
  have hspace : IsSpace [' '] := by
    decide
  have hitems : ItemList item.toList [item] := .bare (.last (.name (aliased_self hitem)))
  have hderives := Derives.items hspace h hspace hspace hitems
  rw [String.ofList_toList] at hderives
  rw [htext, trim_of_isSolid_ends (by decide) hitem.isSolid]
  simpa only [List.append_assoc] using hderives

/-- A module that imports a dotted identifier has an absolute record with this name. -/
theorem exists_record_of_imports {m : SourceModule} {name : String} (h : m.Imports name)
    (hname : Dotted.IsIdent name) :
    ∃ statement ∈ m.imports, ∃ r ∈ parse statement m.name,
      r.name = name ∧ r.source = m.name ∧ r.isRelative = false := by
  have hpath := path_of_isIdent hname
  rcases h with hmem | ⟨item, hitem, hmem⟩
  · refine ⟨_, hmem, ?_⟩
    rw [parse_of_derives m.name (derives_import hpath)]
    refine ⟨_, List.mem_singleton_self _, rfl, rfl, ?_⟩
    rw [ImportRecord.isRelative, form_newRecord hname]
    rfl
  · refine ⟨_, hmem, ?_⟩
    rw [parse_of_derives m.name (derives_from hpath hitem)]
    refine ⟨_, List.mem_singleton_self _, rfl, rfl, ?_⟩
    rw [ImportRecord.isRelative, form_newRecord hname]
    rfl

end Import

/-! ### Analyses that nothing stops -/

namespace AnalysisConfig

/-- The builder to which all modules of a list have been added. -/
def builderOf (config : AnalysisConfig) (modules : List SourceModule) : Builder :=
  (Builder.start (.ofModules ⟨config.extraStdlib⟩ modules)).addAll modules

/-- Without patterns and without flawed names an analysis takes all modules and ends without an
error. -/
theorem analyze_of_valid {config : AnalysisConfig} {modules : List SourceModule}
    (hvalid : ∀ m ∈ modules, m.isValid = true) (hpatterns : config.excludePatterns = []) :
    config.analyze modules =
      .assemble (config.builderOf modules).graph.compute (config.builderOf modules).records []
        ((config.builderOf modules).graph.compute.cycles.map cycleWarning) := by
  have hparsed : ∀ text ∈ config.excludePatterns, ∃ glob, Glob.parse text = .ok glob := by
    simp [hpatterns]
  have hleft : config.remaining modules = modules := by
    simp [remaining, excludes, hpatterns]
  have hselected : config.selected modules = modules := by
    rw [selected]
    split
    · exact List.filter_eq_self.2 hvalid
    · rfl
  have hskipped : config.skipWarnings modules = [] := by
    rw [skipWarnings]
    split
    · refine List.filterMap_eq_nil_iff.2 fun m hm => ?_
      rw [Option.isNone_iff_eq_none.1 (hvalid m hm), Option.map_none]
    · rfl
  rw [analyze_of_patterns hparsed, hleft, hselected, hskipped, analyzeSelected,
    addModules_of_valid hvalid]
  rfl

/-- An import of a module by its full name is an edge of the graph. -/
theorem edge_of_imports {config : AnalysisConfig} {modules : List SourceModule}
    {m next : SourceModule} (hm : m ∈ modules) (hnext : next ∈ modules)
    (hvalid : next.isValid = true) (hname : Dotted.IsIdent next.name)
    (hstd : Classifier.isStdlib ⟨config.extraStdlib⟩
      ((Dotted.segments next.name).head (Dotted.segments_ne_nil next.name)) = false)
    (h : m.Imports next.name) :
    (config.builderOf modules).graph.internal.Edge m.name next.name := by
  obtain ⟨statement, hstatement, r, hr, hrname, hsource, habs⟩ :=
    Import.exists_record_of_imports h hname
  have hinternal : r.name ∈ (Project.ofModules ⟨config.extraStdlib⟩ modules).internal := by
    rw [hrname]
    exact Project.mem_internal_ofModules hnext hvalid
  obtain ⟨hkind, hsettled, htarget⟩ :=
    Project.settle_of_mem_internal modules habs (hrname ▸ hstd) hinternal
  -- the settled record is among those of the module, and the graph has its edge
  have hrecords : (Project.ofModules ⟨config.extraStdlib⟩ modules).settle r ∈
      (config.builderOf modules).records := by
    rw [builderOf, Builder.records_addAll]
    refine List.mem_append_right _ (List.mem_flatMap.2 ⟨m, hm, ?_⟩)
    exact List.mem_flatMap.2 ⟨statement, hstatement, List.mem_map_of_mem hr⟩
  have hedge := (Builder.image_addAll (Builder.image_start _) modules).mem_targets hrecords
  rw [hkind, hsettled, htarget, hsource, hrname] at hedge
  exact hedge

/-- **Circular imports are never missed.**  If modules of the list import each other in a ring, each
one the next by its full name, a dotted identifier whose first segment is not standard library, then
an analysis without patterns and flawed names ends without an error, finds a cycle, warns of each
cycle that it finds, and has the names of the ring in one group, whatever the other modules and
statements are. -/
theorem analyze_finds_circular_imports (config : AnalysisConfig) (modules : List SourceModule)
    (hvalid : ∀ m ∈ modules, m.isValid = true) (hpatterns : config.excludePatterns = [])
    {k : Nat} (hk : 0 < k) (names : Nat → String)
    (hident : ∀ i < k, Dotted.IsIdent (names ((i + 1) % k)))
    (hstd : ∀ i < k, Classifier.isStdlib ⟨config.extraStdlib⟩
      ((Dotted.segments (names ((i + 1) % k))).head (Dotted.segments_ne_nil _)) = false)
    (himports : ∀ i < k, ∃ m ∈ modules, m.name = names i ∧ m.Imports (names ((i + 1) % k))) :
    let result := config.analyze modules
    result.errors = [] ∧ result.graph.cycles ≠ [] ∧
    result.warnings = result.graph.cycles.map (fun cycle =>
      "Circular dependency detected: " ++ " -> ".intercalate cycle) ∧
    ∃ group ∈ result.graph.cycleGroups, ∀ i < k, names i ∈ group := by
  intro result
  have hresult : result = _ := analyze_of_valid hvalid hpatterns
  have hring : ∀ i < k,
      (config.builderOf modules).graph.internal.Edge (names i) (names ((i + 1) % k)) := by
    intro i hi
    obtain ⟨m, hm, hname, himport⟩ := himports i hi
    obtain ⟨next, hnext, hnextName, -⟩ := himports ((i + 1) % k) (Nat.mod_lt _ hk)
    have hidentNext := hident i hi
    have hstdNext := hstd i hi
    rw [← hnextName] at himport hidentNext
    simp only [← hnextName] at hstdNext
    rw [← hname, ← hnextName]
    exact edge_of_imports hm hnext (hvalid next hnext) hidentNext hstdNext himport
  have hself : (config.builderOf modules).graph.internal.Reaches (names 0) (names 0) :=
    EdgeMap.reaches_of_ring hring hk hk
  obtain ⟨group, hgroup, hmem⟩ := EdgeMap.exists_group_of_reaches_self hself
  rw [hresult]
  refine ⟨rfl, EdgeMap.cycles_ne_nil_of_reaches_self hself, rfl, group, hgroup, ?_⟩
  intro i hi
  exact (hmem (names i)).2
    ⟨EdgeMap.reaches_of_ring hring hk hi, EdgeMap.reaches_of_ring hring hi hk⟩

/-- Two modules that import each other are found, though a module in front of them could be spelled
as one of them. -/
theorem analyze_finds_mutual_import :
    let modules : List SourceModule :=
      [⟨"c.b", "", []⟩, ⟨"a.x", "", ["import b"]⟩, ⟨"b", "", ["import os", "from a.x import y"]⟩]
    let result := AnalysisConfig.default.analyze modules
    result.errors = [] ∧ result.graph.cycles ≠ [] ∧
    result.warnings = result.graph.cycles.map (fun cycle =>
      "Circular dependency detected: " ++ " -> ".intercalate cycle) ∧
    ∃ group ∈ result.graph.cycleGroups, ∀ i < 2, (if i = 0 then "a.x" else "b") ∈ group := by
  refine analyze_finds_circular_imports .default _ (by decide) rfl (by decide)
    (fun i => if i = 0 then "a.x" else "b") (by decide) (by decide) ?_
  intro i hi
  obtain rfl | rfl : i = 0 ∨ i = 1 := by omega
  · exact ⟨⟨"a.x", "", ["import b"]⟩, by simp, rfl, Or.inl (by decide)⟩
  · exact ⟨⟨"b", "", ["import os", "from a.x import y"]⟩, by simp, rfl,
      Or.inr ⟨"y", by decide, by decide⟩⟩

end AnalysisConfig

end ModuleDeps
