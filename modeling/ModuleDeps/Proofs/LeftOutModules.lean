/-
Modules that are left out of an analysis leave no trace in it.

An analysis can leave modules out for two reasons: a pattern matches their name, or their name is
flawed and flawed names are to be skipped.  A module could still show although it is left out: its
name could count as internal, its spellings could be taken for those of another module, its flaw
could stop the work.  None of this happens.  Patterns come first and names second, and everything
that follows sees only the modules that are kept.  So an analysis is the one of the kept modules
that leaves nothing out, and the skipped ones are told in front of its warnings.

Main definitions:

* `ModuleDeps.AnalysisConfig.keepAll` — the configuration that leaves out nothing;
* `ModuleDeps.AnalysisConfig.kept` — the modules that a configuration keeps.

Main results:

* `ModuleDeps.AnalysisConfig.analyzeSelected_warnings` — the warnings so far stand in front and
  change nothing else;
* `ModuleDeps.AnalysisConfig.analyze_eq_keepAll` — an analysis is one of the kept modules;
* `ModuleDeps.AnalysisConfig.analyze_ignores_left_out` — **what is left out has no influence**.
-/

import ModuleDeps.Proofs.PartialResults

set_option relaxedAutoImplicit false
set_option autoImplicit false

namespace ModuleDeps.AnalysisConfig

/-- The configuration with the same standard library that leaves out no module. -/
def keepAll (config : AnalysisConfig) : AnalysisConfig :=
  { config with excludePatterns := [], skipInvalid := false }

/-- The modules that the configuration keeps. -/
def kept (config : AnalysisConfig) (modules : List SourceModule) : List SourceModule :=
  config.selected (config.remaining modules)

theorem kept_of_not_skipInvalid {config : AnalysisConfig} (h : config.skipInvalid = false)
    (modules : List SourceModule) : config.kept modules = config.remaining modules := by
  rw [kept, selected, h]
  rfl

theorem kept_of_skipInvalid {config : AnalysisConfig} (h : config.skipInvalid = true)
    (modules : List SourceModule) :
    config.kept modules = (config.remaining modules).filter (·.check.isOk) := by
  rw [kept, selected, h, if_pos rfl, SourceModule.isValid_eq_isOk_check]

/-! ### One analysis in terms of the other -/

/-- Of its configuration, an analysis that leaves out nothing reads the standard library only. -/
theorem analyze_keepAll (config : AnalysisConfig) (modules : List SourceModule) :
    config.keepAll.analyze modules = config.analyzeSelected modules [] := by
  have hpatterns : ∀ text ∈ config.keepAll.excludePatterns, ∃ glob, Glob.parse text = .ok glob := by
    intro text htext
    cases htext
  have hall : config.keepAll.remaining modules = modules := by
    simp [remaining, excludes, keepAll]
  rw [analyze_of_patterns hpatterns, hall]
  rfl

/-- The warnings so far stand in front of the others, and change nothing else. -/
theorem analyzeSelected_warnings (config : AnalysisConfig) (modules : List SourceModule)
    (warnings : List String) :
    config.analyzeSelected modules warnings =
      { config.analyzeSelected modules [] with
        warnings := warnings ++ (config.analyzeSelected modules []).warnings } := by
  rw [analyzeSelected, analyzeSelected]
  rcases addModules (.start (.ofModules ⟨config.extraStdlib⟩ modules)) modules with
    ⟨b, fault | _⟩
  · rfl
  · simp only [AnalysisResult.assemble, List.append_nil]

/-- An analysis is the one of the kept modules that leaves out nothing, with the skipped modules
told in front of its warnings. -/
theorem analyze_eq_keepAll {config : AnalysisConfig}
    (hpatterns : ∀ text ∈ config.excludePatterns, ∃ glob, Glob.parse text = .ok glob)
    (modules : List SourceModule) :
    config.analyze modules =
      { config.keepAll.analyze (config.kept modules) with
        warnings := config.skipWarnings (config.remaining modules) ++
          (config.keepAll.analyze (config.kept modules)).warnings } := by
  rw [analyze_keepAll, analyze_of_patterns hpatterns, analyzeSelected_warnings, kept]

/-! ### The skipped modules -/

/-- Each module that fails its check is told by one warning, in the order of the modules. -/
theorem forall₂_skipWarnings {config : AnalysisConfig} (h : config.skipInvalid = true)
    (modules : List SourceModule) :
    List.Forall₂ (fun m warning => ∃ fault, m.check = .error fault ∧
        warning = "Skipped module: " ++ fault.message)
      (modules.filter fun m => !m.check.isOk) (config.skipWarnings modules) := by
  rw [skipWarnings, h, if_pos rfl]
  induction modules with
  | nil => exact .nil
  | cons m ms ih =>
      rw [List.filter_cons, List.filterMap_cons]
      cases hflaw : m.flaw? with
      | none =>
          have hcheck : m.check = .ok () := by rw [SourceModule.check, hflaw]
          rw [hcheck]
          exact ih
      | some flaw =>
          have hcheck : m.check = .error (m.fault flaw) := by rw [SourceModule.check, hflaw]
          rw [hcheck]
          exact .cons ⟨m.fault flaw, hcheck, rfl⟩ ih

theorem skipWarnings_of_not_skipInvalid {config : AnalysisConfig}
    (h : config.skipInvalid = false) (modules : List SourceModule) :
    config.skipWarnings modules = [] := by
  rw [skipWarnings, h]
  rfl

/-- **Modules that are left out have no influence.**  Let all texts be patterns.  If flawed names
are not skipped, the analysis is that of the modules which no pattern matches, without patterns.  If
they are skipped, it is that of those modules which also pass their check, and its warnings follow
one warning for each module that no pattern matches and that fails its check, in order.  So two
lists of which the same modules are kept have the same records, graph, figures and errors. -/
theorem analyze_ignores_left_out (config : AnalysisConfig) (modules : List SourceModule)
    (hpatterns : ∀ text ∈ config.excludePatterns, ∃ glob, Glob.parse text = .ok glob) :
    let sel := modules.filter fun m => !config.excludes m.name
    let base : AnalysisConfig := { config with excludePatterns := [], skipInvalid := false }
    (config.skipInvalid = false → config.analyze modules = base.analyze sel) ∧
    (config.skipInvalid = true →
      let result := base.analyze (sel.filter fun m => m.check.isOk)
      ∃ skipped, config.analyze modules = { result with warnings := skipped ++ result.warnings } ∧
        List.Forall₂ (fun m warning => ∃ fault, m.check = .error fault ∧
            warning = "Skipped module: " ++ fault.message)
          (sel.filter fun m => !m.check.isOk) skipped) ∧
    (∀ others, config.kept others = config.kept modules →
      (config.analyze others).records = (config.analyze modules).records ∧
      (config.analyze others).graph = (config.analyze modules).graph ∧
      (config.analyze others).statistics = (config.analyze modules).statistics ∧
      (config.analyze others).errors = (config.analyze modules).errors) := by
  intro sel base
  refine ⟨fun hskip => ?_, fun hskip => ?_, fun others hsame => ?_⟩
  · rw [analyze_eq_keepAll hpatterns, skipWarnings_of_not_skipInvalid hskip, List.nil_append,
      kept_of_not_skipInvalid hskip]
    rfl
  · refine ⟨config.skipWarnings sel, ?_, forall₂_skipWarnings hskip sel⟩
    rw [analyze_eq_keepAll hpatterns, kept_of_skipInvalid hskip]
    rfl
  · rw [analyze_eq_keepAll hpatterns others, analyze_eq_keepAll hpatterns modules, hsame]
    exact ⟨rfl, rfl, rfl, rfl⟩

/-- One module matches the pattern, one has a flawed name, and one has both faults: only the second
one is told, and the other two are analysed as if they were the whole list. -/
theorem analyze_ignores_excluded_and_flawed :
    let config : AnalysisConfig := ⟨[], ["t*"], true⟩
    let app : SourceModule := ⟨"app", "", ["import util", "import test.util"]⟩
    let util : SourceModule := ⟨"src.util", "", []⟩
    let result := AnalysisConfig.default.analyze [app, util]
    config.analyze
        [⟨"test.util", "", ["import app"]⟩, app, ⟨"util.", "", []⟩, ⟨"t..x", "", []⟩, util] =
      { result with
        warnings := ("Skipped module: Invalid module 'util.': " ++
          "module name contains an empty dotted segment") :: result.warnings } := by
  intro config app util result
  let modules : List SourceModule :=
    [⟨"test.util", "", ["import app"]⟩, app, ⟨"util.", "", []⟩, ⟨"t..x", "", []⟩, util]
  have hpattern : Glob.parse "t*" = .ok ⟨[.literal 't', .anyText]⟩ := by
    decide +kernel
  have hsel : modules.filter (fun m => !config.excludes m.name) =
      [app, ⟨"util.", "", []⟩, util] := by
    decide +kernel
  have hvalid : [app, ⟨"util.", "", []⟩, util].filter (fun m => m.check.isOk) = [app, util] := by
    decide
  have hflawed : [app, ⟨"util.", "", []⟩, util].filter (fun m => !m.check.isOk) =
      [⟨"util.", "", []⟩] := by
    decide
  have hcheck : SourceModule.check ⟨"util.", "", []⟩ = .error (.invalidModule "util."
      "module name contains an empty dotted segment") := by
    decide
  obtain ⟨-, hskip, -⟩ := analyze_ignores_left_out config modules
    fun text htext => ⟨_, List.mem_singleton.1 htext ▸ hpattern⟩
  obtain ⟨skipped, hresult, htold⟩ := hskip rfl
  rw [hsel, hvalid] at hresult
  rw [hsel, hflawed] at htold
  cases htold with
  | cons htold hrest =>
      cases hrest
      obtain ⟨fault, hfault, rfl⟩ := htold
      rw [hcheck] at hfault
      cases hfault
      exact hresult

end ModuleDeps.AnalysisConfig
