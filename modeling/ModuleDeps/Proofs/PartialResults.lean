/-
What a fault leaves of an analysis.

An analysis always has a result.  A text that is no pattern ends it before it looks at any module.
A module with a flawed name ends it in the middle: the modules in front of it are in the graph, it
and the modules behind it are not, but their names have been known from the start.  Nothing else
stops an analysis, and its figures always belong to what it returns.

Main definitions:

* `ModuleDeps.AnalysisConfig.excludes` — some pattern of the configuration matches a name;
* `ModuleDeps.AnalysisConfig.remaining` — the modules that no pattern leaves out.

Main results:

* `ModuleDeps.AnalysisConfig.mapM_parse_cases` — the patterns can be read, or one of the texts is
  the reason why not;
* `ModuleDeps.AnalysisConfig.addModules_of_first_fault` — modules are added up to the first one that
  fails its check;
* `ModuleDeps.AnalysisConfig.analyze_leaves_partial_result` — **what an analysis returns, whether or
  not a fault stops it**.
-/

import Mathlib.Data.List.Forall2
import ModuleDeps.Analysis
import ModuleDeps.Proofs.GraphImage

set_option relaxedAutoImplicit false
set_option autoImplicit false

namespace ModuleDeps

namespace SourceModule

theorem isValid_iff_check {m : SourceModule} : m.isValid = true ↔ m.check = .ok () := by
  rw [isValid, check]
  cases m.flaw? with
  | none => simp
  | some flaw => simp

theorem isValid_eq_isOk_check : isValid = fun m => m.check.isOk := by
  funext m
  rw [isValid, check]
  cases m.flaw? with
  | none => rfl
  | some flaw => rfl

/-- A module fails its check with the fault of the flaw of its name. -/
theorem exists_flaw_of_check {m : SourceModule} {fault : Fault} (h : m.check = .error fault) :
    ∃ flaw, m.flaw? = some flaw ∧ m.fault flaw = fault := by
  rw [check] at h
  cases hflaw : m.flaw? with
  | none =>
      rw [hflaw] at h
      cases h
  | some flaw =>
      rw [hflaw] at h
      cases h
      exact ⟨flaw, rfl, rfl⟩

end SourceModule

namespace AnalysisConfig

/-! ### Patterns -/

/-- Does some pattern of the configuration match the name?  A text that is no pattern matches
nothing. -/
def excludes (config : AnalysisConfig) (name : String) : Bool :=
  config.excludePatterns.any fun text =>
    match Glob.parse text with
    | .ok glob => glob.accepts name
    | .error _ => false

/-- The modules that no pattern leaves out. -/
def remaining (config : AnalysisConfig) (modules : List SourceModule) : List SourceModule :=
  modules.filter fun m => !config.excludes m.name

/-- The texts are read one by one, and the first one that is no pattern ends the reading. -/
theorem mapM_parse_cases (texts : List String) :
    (∃ globs, texts.mapM Glob.parse = .ok globs ∧
      List.Forall₂ (fun text glob => Glob.parse text = .ok glob) texts globs) ∨
    ∃ text ∈ texts, ∃ flaw, Glob.parse text = .error flaw ∧
      texts.mapM Glob.parse = .error flaw := by
  induction texts with
  | nil => exact Or.inl ⟨[], rfl, .nil⟩
  | cons text texts ih =>
      rw [List.mapM_cons]
      cases htext : Glob.parse text with
      | error flaw => exact Or.inr ⟨text, List.mem_cons_self, flaw, htext, rfl⟩
      | ok glob =>
          rcases ih with ⟨globs, hglobs, hall⟩ | ⟨other, hother, flaw, hflaw, herror⟩
          · refine Or.inl ⟨glob :: globs, ?_, .cons htext hall⟩
            rw [hglobs]
            rfl
          · refine Or.inr ⟨other, List.mem_cons_of_mem _ hother, flaw, hflaw, ?_⟩
            rw [herror]
            rfl

/-- Patterns that have been read match the names that the configuration excludes. -/
theorem any_accepts_eq_excludes {config : AnalysisConfig} {globs : List Glob}
    (h : List.Forall₂ (fun text glob => Glob.parse text = .ok glob) config.excludePatterns globs)
    (name : String) : globs.any (·.accepts name) = config.excludes name := by
  rw [excludes]
  generalize config.excludePatterns = texts at h
  induction h with
  | nil => rfl
  | cons hparse _ ih => rw [List.any_cons, List.any_cons, ih, hparse]

/-- If all texts are patterns, the analysis goes on with the modules that remain. -/
theorem analyze_of_patterns {config : AnalysisConfig}
    (h : ∀ text ∈ config.excludePatterns, ∃ glob, Glob.parse text = .ok glob)
    (modules : List SourceModule) :
    config.analyze modules =
      config.analyzeSelected (config.selected (config.remaining modules))
        (config.skipWarnings (config.remaining modules)) := by
  rcases mapM_parse_cases config.excludePatterns with ⟨globs, hglobs, hall⟩ | hflawed
  · have hleft : notExcluded globs modules = config.remaining modules := by
      simp only [notExcluded, remaining, any_accepts_eq_excludes hall]
    rw [analyze, patterns, hglobs]
    simp only [hleft]
  · obtain ⟨text, htext, flaw, hflaw, -⟩ := hflawed
    obtain ⟨glob, hglob⟩ := h text htext
    rw [hglob] at hflaw
    cases hflaw

/-- If some text is no pattern, the analysis ends with the flaw of such a text and nothing else. -/
theorem analyze_of_flawed_pattern {config : AnalysisConfig}
    (h : ∃ text ∈ config.excludePatterns, ∃ flaw, Glob.parse text = .error flaw)
    (modules : List SourceModule) :
    ∃ text ∈ config.excludePatterns, ∃ flaw, Glob.parse text = .error flaw ∧
      config.analyze modules = .assemble .empty [] [failure (.pattern flaw)] [] := by
  rcases mapM_parse_cases config.excludePatterns with ⟨globs, -, hall⟩ | hflawed
  · obtain ⟨text, htext, flaw, hflaw⟩ := h
    obtain ⟨i, hi, rfl⟩ := List.getElem_of_mem htext
    have hglob := hall.get hi (hall.length_eq ▸ hi)
    simp only [List.get_eq_getElem, hflaw] at hglob
    cases hglob
  · obtain ⟨text, htext, flaw, hflaw, herror⟩ := hflawed
    refine ⟨text, htext, flaw, hflaw, ?_⟩
    rw [analyze, patterns, herror]

/-! ### Modules -/

/-- Modules with acceptable names are added, and the work goes on behind them. -/
theorem addModules_append {before : List SourceModule}
    (hvalid : ∀ m ∈ before, m.isValid = true) (b : Builder) (rest : List SourceModule) :
    addModules b (before ++ rest) = addModules (b.addAll before) rest := by
  induction before generalizing b with
  | nil => rfl
  | cons m ms ih =>
      have hflaw : m.flaw? = none := Option.isNone_iff_eq_none.1 (hvalid m List.mem_cons_self)
      rw [List.cons_append, addModules, hflaw]
      exact ih (fun x hx => hvalid x (List.mem_cons_of_mem _ hx)) _

/-- No module with an acceptable name stops the work. -/
theorem addModules_of_valid {modules : List SourceModule}
    (hvalid : ∀ m ∈ modules, m.isValid = true) (b : Builder) :
    addModules b modules = (b.addAll modules, none) := by
  have happend := addModules_append hvalid b []
  rwa [List.append_nil] at happend

/-- The first module that fails its check stops the work, and the modules in front of it have been
added. -/
theorem addModules_of_first_fault {modules : List SourceModule} {k : Nat} {m : SourceModule}
    {fault : Fault} (hm : modules[k]? = some m) (hfault : m.check = .error fault)
    (hbefore : ∀ x ∈ modules.take k, x.isValid = true) (b : Builder) :
    addModules b modules = (b.addAll (modules.take k), some fault) := by
  obtain ⟨hk, rfl⟩ := List.getElem?_eq_some_iff.1 hm
  have hsplit : modules.take k ++ modules[k] :: modules.drop (k + 1) = modules := by
    rw [← List.drop_eq_getElem_cons hk, List.take_append_drop]
  have happend := addModules_append hbefore b (modules[k] :: modules.drop (k + 1))
  rw [hsplit] at happend
  obtain ⟨flaw, hflaw, rfl⟩ := SourceModule.exists_flaw_of_check hfault
  rw [happend, addModules, hflaw]

theorem isValid_of_mem_selected {config : AnalysisConfig} {modules : List SourceModule}
    (h : config.skipInvalid = true ∨ ∀ m ∈ modules, m.isValid = true) {m : SourceModule}
    (hm : m ∈ config.selected modules) : m.isValid = true := by
  rw [selected] at hm
  split at hm
  · exact (List.mem_filter.1 hm).2
  · next hskip => exact (h.resolve_left hskip) m hm

/-- The first fault ends the analysis, with what has been built in front of it. -/
theorem analyzeSelected_of_first_fault (config : AnalysisConfig) {modules : List SourceModule}
    {k : Nat} {m : SourceModule} {fault : Fault} (hm : modules[k]? = some m)
    (hfault : m.check = .error fault) (hbefore : ∀ x ∈ modules.take k, x.isValid = true)
    (warnings : List String) :
    let b := (Builder.start (.ofModules ⟨config.extraStdlib⟩ modules)).addAll (modules.take k)
    config.analyzeSelected modules warnings =
      .assemble b.graph b.records [failure fault] warnings := by
  intro b
  rw [analyzeSelected, addModules_of_first_fault hm hfault hbefore]

/-- Without a fault there is no error. -/
theorem errors_analyzeSelected {config : AnalysisConfig} {modules : List SourceModule}
    (hvalid : ∀ m ∈ modules, m.isValid = true) (warnings : List String) :
    (config.analyzeSelected modules warnings).errors = [] := by
  rw [analyzeSelected, addModules_of_valid hvalid]
  rfl

/-- The figures of a result are those of its records and its graph. -/
theorem statistics_analyze (config : AnalysisConfig) (modules : List SourceModule) :
    (config.analyze modules).statistics =
      .ofGraph (config.analyze modules).records (config.analyze modules).graph := by
  rw [analyze]
  split
  · rfl
  · simp only [analyzeSelected]
    split <;> rfl

/-- **What an analysis returns, whether or not a fault stops it.**  If some text is no pattern,
there is one error, for such a text, and nothing else.  Otherwise, if flawed modules are not left
out and some of the remaining modules fail their check, there is one error, for the first of them,
and the records and the graph are those of the modules in front of it, read with the names of all
remaining modules that pass; nothing has been computed and nothing is warned of.  Otherwise there is
no error.  The figures are in every case those of the records and the graph that are returned. -/
theorem analyze_leaves_partial_result (config : AnalysisConfig) (modules : List SourceModule) :
    let result := config.analyze modules
    let sel := config.remaining modules
    let names := (sel.filter (·.check.isOk)).map (·.name)
    let project : Project := ⟨⟨config.extraStdlib⟩, names, .ofNames names⟩
    ((∃ text ∈ config.excludePatterns, ∃ flaw, Glob.parse text = .error flaw) →
      result.graph = .empty ∧ result.records = [] ∧ result.warnings = [] ∧
      ∃ text ∈ config.excludePatterns, ∃ flaw, Glob.parse text = .error flaw ∧
        result.errors = ["Dependency analysis failed: " ++ (Fault.pattern flaw).message]) ∧
    ((∀ text ∈ config.excludePatterns, ∃ glob, Glob.parse text = .ok glob) →
      (config.skipInvalid = false → ∀ k m fault, sel[k]? = some m → m.check = .error fault →
        (∀ x ∈ sel.take k, x.check = .ok ()) →
          result.errors = ["Dependency analysis failed: " ++ fault.message] ∧
          result.warnings = [] ∧ result.graph.cycles = [] ∧ result.graph.depth = .empty ∧
          result.records = (sel.take k).flatMap (fun x =>
            x.imports.flatMap fun statement => project.process statement x.name) ∧
          result.graph = ((Builder.start project).addAll (sel.take k)).graph ∧
          result.graph.Image result.records) ∧
      (config.skipInvalid = true ∨ (∀ x ∈ sel, x.check = .ok ()) → result.errors = [])) ∧
    result.statistics = .ofGraph result.records result.graph := by
  intro result sel names project
  have hproject : Project.ofModules ⟨config.extraStdlib⟩ sel = project := by
    rw [Project.ofModules, SourceModule.isValid_eq_isOk_check]
  refine ⟨fun hflawed => ?_, fun hpatterns => ?_, statistics_analyze config modules⟩
  · obtain ⟨text, htext, flaw, hflaw, hresult⟩ := analyze_of_flawed_pattern hflawed modules
    have hresult : result = _ := hresult
    rw [hresult]
    exact ⟨rfl, rfl, rfl, text, htext, flaw, hflaw, rfl⟩
  · have hresult :
        result = config.analyzeSelected (config.selected sel) (config.skipWarnings sel) :=
      analyze_of_patterns hpatterns modules
    rw [hresult]
    refine ⟨fun hskip k m fault hm hfault hbefore => ?_, fun h => ?_⟩
    · have hselected : config.selected sel = sel := by
        rw [selected, hskip]
        rfl
      have hquiet : config.skipWarnings sel = [] := by
        rw [skipWarnings, hskip]
        rfl
      rw [hselected, hquiet, analyzeSelected_of_first_fault config hm hfault
        (fun x hx => SourceModule.isValid_iff_check.2 (hbefore x hx)), hproject]
      have himage := Builder.image_addAll (Builder.image_start project) (sel.take k)
      exact ⟨rfl, rfl, himage.cycles, himage.depth, Builder.records_addAll _ _, rfl, himage⟩
    · refine errors_analyzeSelected (fun m hm => isValid_of_mem_selected ?_ hm) _
      exact h.imp_right fun hall x hx => SourceModule.isValid_iff_check.2 (hall x hx)

/-- A module with a flawed name stands between two others: what the first one imports is recorded,
and the last one is known by name though it is never added. -/
theorem analyze_stops_at_flawed_name :
    let config : AnalysisConfig := ⟨[], ["t?"], false⟩
    let sel : List SourceModule :=
      [⟨"a", "", ["import b"]⟩, ⟨"bad..name", "", ["import a"]⟩, ⟨"b", "", ["import a"]⟩]
    let result := config.analyze (⟨"t1", "", ["import a"]⟩ :: sel)
    let project : Project := ⟨⟨[]⟩, ["a", "b"], .ofNames ["a", "b"]⟩
    result.errors = ["Dependency analysis failed: Invalid module 'bad..name': " ++
      "module name contains an empty dotted segment"] ∧
    result.warnings = [] ∧ result.graph.cycles = [] ∧ result.graph.depth = .empty ∧
    result.records = project.process "import b" "a" := by
  intro config sel result project
  obtain ⟨-, hpartial, -⟩ :=
    analyze_leaves_partial_result config (⟨"t1", "", ["import a"]⟩ :: sel)
  have hsel : config.remaining (⟨"t1", "", ["import a"]⟩ :: sel) = sel := by
    decide +kernel
  have hpattern : Glob.parse "t?" = .ok ⟨[.literal 't', .anyChar]⟩ := by
    decide +kernel
  obtain ⟨hfault, -⟩ := hpartial fun text htext => ⟨_, List.mem_singleton.1 htext ▸ hpattern⟩
  have hnames : (sel.filter (·.check.isOk)).map (·.name) = ["a", "b"] := by
    decide
  rw [hsel, hnames] at hfault
  obtain ⟨herrors, hwarnings, hcycles, hdepth, hrecords, -⟩ :=
    hfault rfl 1 ⟨"bad..name", "", ["import a"]⟩
      (.invalidModule "bad..name" "module name contains an empty dotted segment") rfl
      (by decide) (by decide)
  refine ⟨herrors, hwarnings, hcycles, hdepth, hrecords.trans ?_⟩
  simp [sel, project, config]

end AnalysisConfig

end ModuleDeps
