/-
How a run ends, and what it reports.

A run with settings looks at every input by itself.  An input that cannot be loaded is told and
passed over; the others are analysed, one by one or at once, and the report on all of them goes to
one place.  An analysis always has a result, but a flawed name that is neither excluded nor skipped
leaves an error in it.  A pattern never does: settings that passed their check hold only texts that
are patterns.

A report holds the time at which its analysis ended, which is another one for each input and in each
run.  Only JSON shows it.  In all else it makes no difference whether inputs are analysed at once.

The exit status says the worst that happened: two if an input could not be loaded, one if an
analysis has an error, and zero otherwise.

Main definitions:

* `ModuleDeps.FileTree.modules?` — the modules that an input lists, if it can be loaded;
* `ModuleDeps.Settings.reports` — the reports on the inputs that can be loaded, in order;
* `ModuleDeps.Report.untimed` — a report without its time;
* `ModuleDeps.Settings.MeetsFlaw` — some input lists a module whose name stops its analysis;
* `ModuleDeps.Settings.CanReport` — the report of a run can be put together and handed over;
* `ModuleDeps.Settings.Ending` — what a run with settings can come to.

Main results:

* `ModuleDeps.analyzeAll_eq` — it makes no difference whether inputs are analysed at once;
* `ModuleDeps.AnalysisConfig.errors_of_stops`, `ModuleDeps.AnalysisConfig.errors_of_not_stops` — the
  errors of an analysis;
* `ModuleDeps.Settings.exists_glob_of_check` — settings that passed their check hold patterns;
* `ModuleDeps.ending_analyzeWith` — every run with inputs ends in one of these ways;
* `ModuleDeps.analyzeWith_congr` — what a run does depends on the time only through JSON;
* `ModuleDeps.run_reports_loaded_inputs` — **exit status and output of a run**.
-/

import ModuleDeps.Command
import ModuleDeps.Proofs.FileTrees
import ModuleDeps.Proofs.PartialResults
import ModuleDeps.Proofs.SettingsPrecedence

set_option relaxedAutoImplicit false
set_option autoImplicit false

namespace ModuleDeps

/-! ### Inputs -/

/-- The modules that an input lists, if its text can be read and is a module list. -/
def FileTree.modules? (files : FileTree) (input : RawText) : Option (List SourceModule) :=
  (files.readText input).toOption.bind fun text => (ModuleList.parse text).toOption

/-- Looking first whether something is there changes only how a failure is told. -/
theorem toOption_readModules (files : FileTree) (input : RawText) :
    (readModules files input).toOption = files.modules? input := by
  rw [readModules, FileTree.modules?, FileTree.isPresent]
  cases hfind : files.find input with
  | error cause =>
      rw [FileTree.readText, hfind]
      rfl
  | ok entry =>
      simp only [Except.toBool, Bool.not_true, Bool.false_eq_true, if_false]
      cases files.readText input with
      | error cause => rfl
      | ok text =>
          simp only [ModuleList.parseFile, Except.toOption, Option.bind_some]
          cases ModuleList.parse text with
          | error flaw => rfl
          | ok modules => rfl

theorem reportOf?_analyzeAt (config : AnalysisConfig) (files : FileTree) (clock : Nat → String)
    (input : RawText × Nat) :
    reportOf? (analyzeAt config files clock input) =
      (files.modules? input.1).map fun modules =>
        (input.1, ⟨input.1.shown, modules.length, clock input.2, config.analyze modules⟩) := by
  rw [← toOption_readModules, analyzeAt, analyzeInput]
  cases readModules files input.1 with
  | error fault => rfl
  | ok modules => rfl

/-- What is said about an input that cannot be loaded. -/
def complaint? (files : FileTree) (input : RawText) : Option Notice :=
  match readModules files input with
  | .ok _ => none
  | .error fault => some (.inputFailed input fault)

theorem noticeOf?_analyzeAt (config : AnalysisConfig) (files : FileTree) (clock : Nat → String)
    (input : RawText × Nat) :
    noticeOf? (analyzeAt config files clock input) = complaint? files input.1 := by
  rw [analyzeAt, analyzeInput, complaint?]
  cases readModules files input.1 with
  | error fault => rfl
  | ok modules => rfl

theorem complaint?_eq_none_iff {files : FileTree} {input : RawText} :
    complaint? files input = none ↔ files.modules? input ≠ none := by
  rw [← toOption_readModules, complaint?]
  cases readModules files input with
  | error fault => simp [Except.toOption]
  | ok modules => simp [Except.toOption]

/-- What tasks find is what a function has for values. -/
theorem mapAtOnce_eq_map {α β : Type} (f : α → β) (items : List α) :
    mapAtOnce f items = items.map f := by
  rw [mapAtOnce, List.map_map]
  rfl

/-- It makes no difference whether inputs are analysed at once. -/
theorem analyzeAll_eq (s : Settings) (found : Surroundings) :
    analyzeAll s found = analyzeInputs s.analysis found.files found.clock s.inputs := by
  rw [analyzeAll]
  split
  · exact mapAtOnce_eq_map _ _
  · rfl

theorem filterMap_zipIdx_fst {α β : Type} (f : α → Option β) (items : List α) :
    items.zipIdx.filterMap (fun item => f item.1) = items.filterMap f := by
  have hmap := List.filterMap_map (f := Prod.fst) (g := f) (l := items.zipIdx)
  rw [List.zipIdx_map_fst] at hmap
  exact hmap.symm

/-- A report without its time. -/
def Report.untimed (r : Report) : Report :=
  { r with analyzedAt := "" }

namespace Settings

variable {s : Settings} {found : Surroundings}

/-- The reports on the inputs that can be loaded, in the order of the inputs. -/
def reports (s : Settings) (found : Surroundings) : List (RawText × Report) :=
  s.inputs.zipIdx.filterMap fun input => (found.files.modules? input.1).map fun modules =>
    (input.1, ⟨input.1.shown, modules.length, found.clock input.2, s.analysis.analyze modules⟩)

/-- What is said about the inputs that cannot be loaded. -/
def complaints (s : Settings) (found : Surroundings) : List Notice :=
  s.inputs.filterMap (complaint? found.files)

theorem filterMap_reportOf? (s : Settings) (found : Surroundings) :
    (analyzeAll s found).filterMap reportOf? = s.reports found := by
  rw [analyzeAll_eq, analyzeInputs, List.filterMap_map, reports]
  refine List.filterMap_congr ?_
  intro input _
  exact reportOf?_analyzeAt s.analysis found.files found.clock input

theorem filterMap_noticeOf? (s : Settings) (found : Surroundings) :
    (analyzeAll s found).filterMap noticeOf? = s.complaints found := by
  rw [analyzeAll_eq, analyzeInputs, List.filterMap_map, complaints]
  refine .trans (List.filterMap_congr ?_) (filterMap_zipIdx_fst _ s.inputs)
  intro input _
  exact noticeOf?_analyzeAt s.analysis found.files found.clock input

/-- The time apart, the reports depend on nothing but the inputs and the files. -/
theorem map_untimed_reports (s : Settings) (found : Surroundings) :
    (s.reports found).map (fun r => (r.1, r.2.untimed)) =
      s.inputs.filterMap fun input => (found.files.modules? input).map fun modules =>
        (input, ⟨input.shown, modules.length, "", s.analysis.analyze modules⟩) := by
  rw [reports, List.map_filterMap]
  refine .trans (List.filterMap_congr ?_) (filterMap_zipIdx_fst _ s.inputs)
  intro input _
  rw [Option.map_map]
  rfl

theorem complaints_eq_nil_iff :
    s.complaints found = [] ↔ ∀ input ∈ s.inputs, found.files.modules? input ≠ none := by
  rw [complaints, List.filterMap_eq_nil_iff]
  exact forall₂_congr fun input _ => complaint?_eq_none_iff

/-- There is nothing to report exactly if no input can be loaded. -/
theorem reports_eq_nil_iff :
    s.reports found = [] ↔ ∀ input ∈ s.inputs, found.files.modules? input = none := by
  rw [← List.map_eq_nil_iff, map_untimed_reports]
  simp only [List.filterMap_eq_nil_iff, Option.map_eq_none_iff]

theorem exists_of_mem_reports {report : Report} (h : report ∈ (s.reports found).map (·.2)) :
    ∃ input ∈ s.inputs, ∃ modules, found.files.modules? input = some modules ∧
      report.result = s.analysis.analyze modules := by
  obtain ⟨r, hr, rfl⟩ := List.mem_map.1 h
  obtain ⟨⟨input, i⟩, hinput, hreport⟩ := List.mem_filterMap.1 hr
  obtain ⟨modules, hmodules, rfl⟩ := Option.map_eq_some_iff.1 hreport
  exact ⟨input, List.fst_mem_of_mem_zipIdx hinput, modules, hmodules, rfl⟩

theorem exists_mem_reports {input : RawText} {modules : List SourceModule}
    (hinput : input ∈ s.inputs) (hmodules : found.files.modules? input = some modules) :
    ∃ report ∈ (s.reports found).map (·.2), report.result = s.analysis.analyze modules := by
  obtain ⟨i, hi⟩ := List.mem_iff_getElem?.1 hinput
  have hmem : (input, i) ∈ s.inputs.zipIdx := List.mem_zipIdx_iff_getElem?.2 hi
  have hreport : (input, ⟨input.shown, modules.length, found.clock i, s.analysis.analyze modules⟩) ∈
      s.reports found := List.mem_filterMap.2 ⟨_, hmem, by rw [hmodules, Option.map_some]⟩
  exact ⟨_, List.mem_map_of_mem hreport, rfl⟩

end Settings

/-! ### Errors of an analysis -/

/-- A flawed name is told in other words than a flawed pattern. -/
theorem message_invalidModule_ne (name reason : String) (flaw : Glob.Flaw) :
    (Fault.invalidModule name reason).message ≠ (Fault.pattern flaw).message := by
  intro htexts
  have hname : (Fault.invalidModule name reason).message.toList.head? = some 'I' := by
    unfold Fault.message
    rw [String.toList_append, String.toList_append, String.toList_append]
    rfl
  have hpattern : (Fault.pattern flaw).message.toList.head? = some 'G' := by
    unfold Fault.message
    rw [String.toList_append]
    rfl
  rw [htexts, hpattern] at hname
  exact absurd hname (by decide)

namespace AnalysisConfig

variable {config : AnalysisConfig} {modules : List SourceModule}

/-- Flawed names are not skipped, and there is one that no pattern excludes. -/
def Stops (config : AnalysisConfig) (modules : List SourceModule) : Prop :=
  config.skipInvalid = false ∧
    ∃ m ∈ modules, (∃ fault, m.check = .error fault) ∧ config.excludes m.name = false

/-- A module that fails its check stops the work there or before. -/
theorem addModules_of_fault {bad : SourceModule} {flaw : Fault} (hbad : bad ∈ modules)
    (hflaw : bad.check = .error flaw) (b : Builder) :
    ∃ b' m fault, m ∈ modules ∧ m.check = .error fault ∧
      addModules b modules = (b', some fault) := by
  induction modules generalizing b with
  | nil => cases hbad
  | cons x xs ih =>
      rw [addModules]
      cases hx : x.flaw? with
      | some nameFlaw =>
          have hcheck : x.check = .error (x.fault nameFlaw) := by rw [SourceModule.check, hx]
          exact ⟨b, x, x.fault nameFlaw, List.mem_cons_self, hcheck, rfl⟩
      | none =>
          have hvalid : x.check = .ok () := by rw [SourceModule.check, hx]
          have htail : bad ∈ xs := by
            rcases List.mem_cons.1 hbad with rfl | htail
            · rw [hvalid] at hflaw
              cases hflaw
            · exact htail
          obtain ⟨b', m, fault, hm, hcheck, hadd⟩ := ih htail (b.addModule x).1
          exact ⟨b', m, fault, List.mem_cons_of_mem _ hm, hcheck, hadd⟩

section Patterns

variable (hpatterns : ∀ text ∈ config.excludePatterns, ∃ glob, Glob.parse text = .ok glob)
include hpatterns

/-- An analysis that is stopped has one error, and it is the fault of a module. -/
theorem errors_of_stops (h : config.Stops modules) :
    ∃ m ∈ modules, ∃ fault, m.check = .error fault ∧
      (config.analyze modules).errors = [failure fault] := by
  obtain ⟨hskip, bad, hbad, ⟨flaw, hflaw⟩, hkept⟩ := h
  have hselected : config.selected (config.remaining modules) = config.remaining modules := by
    rw [selected, hskip]
    rfl
  have hremains : bad ∈ config.remaining modules :=
    List.mem_filter.2 ⟨hbad, by rw [hkept]; rfl⟩
  obtain ⟨b, m, fault, hm, hcheck, hadd⟩ := addModules_of_fault hremains hflaw
    (.start (.ofModules ⟨config.extraStdlib⟩ (config.remaining modules)))
  refine ⟨m, (List.mem_filter.1 hm).1, fault, hcheck, ?_⟩
  rw [analyze_of_patterns hpatterns, hselected, analyzeSelected, hadd]
  rfl

theorem errors_of_not_stops (h : ¬ config.Stops modules) :
    (config.analyze modules).errors = [] := by
  rw [analyze_of_patterns hpatterns]
  refine errors_analyzeSelected (fun m hm => isValid_of_mem_selected ?_ hm) _
  rcases Bool.eq_false_or_eq_true config.skipInvalid with hskip | hskip
  · exact Or.inl hskip
  · refine Or.inr ?_
    intro x hx
    obtain ⟨hmem, hkept⟩ := List.mem_filter.1 hx
    cases hcheck : x.check with
    | error fault =>
        exact absurd ⟨hskip, x, hmem, ⟨fault, hcheck⟩, by simpa using hkept⟩ h
    | ok _ => exact SourceModule.isValid_iff_check.2 hcheck

theorem hasErrors_analyze_iff :
    (config.analyze modules).hasErrors = true ↔ config.Stops modules := by
  rw [AnalysisResult.hasErrors]
  by_cases h : config.Stops modules
  · obtain ⟨m, -, fault, -, herrors⟩ := errors_of_stops hpatterns h
    simp [herrors, h]
  · simp [errors_of_not_stops hpatterns h, h]

/-- No error of an analysis is about a pattern. -/
theorem pattern_notMem_errors (flaw : Glob.Flaw) :
    failure (.pattern flaw) ∉ (config.analyze modules).errors := by
  by_cases h : config.Stops modules
  · obtain ⟨m, -, fault, hcheck, herrors⟩ := errors_of_stops hpatterns h
    obtain ⟨nameFlaw, -, rfl⟩ := SourceModule.exists_flaw_of_check hcheck
    rw [herrors, List.mem_singleton]
    intro htexts
    unfold failure at htexts
    exact message_invalidModule_ne _ _ flaw ((String.append_right_inj _).1 htexts).symm
  · rw [errors_of_not_stops hpatterns h]
    exact List.not_mem_nil

end Patterns

end AnalysisConfig

/-! ### Checked settings -/

theorem eq_ok_of_toOption {ε α : Type} {x : Except ε α} {a : α} (h : x.toOption = some a) :
    x = .ok a := by
  cases x with
  | error _ => cases h
  | ok b => exact congrArg Except.ok (Option.some.inj h)

theorem forM_eq_ok_iff {α : Type} {f : α → Except Fault Unit} {items : List α} :
    items.forM f = .ok () ↔ ∀ item ∈ items, f item = .ok () := by
  induction items with
  | nil => exact iff_of_true rfl (by simp)
  | cons item items ih =>
      rw [List.forM, List.forall_mem_cons]
      cases hitem : f item with
      | error fault => exact iff_of_false nofun (fun h => nomatch h.1)
      | ok _ => exact ih.trans ⟨fun h => ⟨rfl, h⟩, fun h => h.2⟩

namespace Settings

variable {s : Settings} {files : FileTree}

/-- Settings that passed their check hold only texts that are patterns. -/
theorem exists_glob_of_check (h : s.check files = .ok ()) :
    ∀ text ∈ s.analysis.excludePatterns, ∃ glob, Glob.parse text = .ok glob := by
  obtain ⟨_, -, h⟩ := exists_of_bind_eq_ok h
  obtain ⟨_, hpatterns, -⟩ := exists_of_bind_eq_ok h
  intro text htext
  have hdemand := forM_eq_ok_iff.1 hpatterns text htext
  rw [demandPattern] at hdemand
  cases hparse : Glob.parse text with
  | ok glob => exact ⟨glob, rfl⟩
  | error flaw =>
      rw [hparse] at hdemand
      cases hdemand

end Settings

/-- The settings of a run have passed their check. -/
theorem check_of_loadSettings {found : Surroundings} {stem : String} {a : Arguments} {s : Settings}
    (h : loadSettings found stem a = .ok s) : s.check found.files = .ok () := by
  obtain ⟨layer, -, h⟩ := exists_of_bind_eq_ok h
  obtain ⟨_, hcheck, rfl⟩ := exists_of_map_eq_ok h
  exact hcheck

/-! ### Endings -/

namespace Settings

variable {s : Settings} {found : Surroundings}

/-- How a run goes that comes to its end. -/
def outcome (s : Settings) (found : Surroundings) : Outcome :=
  outcomeOf (s.complaints found) ((s.reports found).map (·.2))

/-- The report of a run, as it is written. -/
def reportText (s : Settings) (found : Surroundings) : String :=
  s.layout.format ((s.reports found).map (·.2)) s.outputFormat

/-- Some input that can be loaded lists a module whose name stops the analysis. -/
def MeetsFlaw (s : Settings) (found : Surroundings) : Prop :=
  s.analysis.skipInvalid = false ∧
    ∃ input ∈ s.inputs, ∃ modules, found.files.modules? input = some modules ∧
      ∃ m ∈ modules, (∃ fault, m.check = .error fault) ∧ s.analysis.excludes m.name = false

/-- If there is anything to report, then the report can be put together, and all of it is taken by
the file for it, or by the standard output if there is no such file. -/
def CanReport (s : Settings) (found : Surroundings) : Prop :=
  s.reports found ≠ [] →
    formatReports s (s.reports found) = .ok (s.reportText found) ∧
    (s.outputFile = none →
      Room.outcome found.outputRoom (RawText.ofText (s.reportText found)).bytes = .ok ()) ∧
    ∀ path, s.outputFile = some path →
      (found.files.writeText found.fileRoom path (s.reportText found)).outcome = .ok ()

/-- What a run with inputs can come to. -/
inductive Ending (s : Settings) (found : Surroundings) : Execution → Prop
  /-- No input can be loaded: nothing is written. -/
  | silent (hreports : s.reports found = []) :
      Ending s found ⟨.ok (s.outcome found), "", s.complaints found, found.files⟩
  /-- The report cannot be put together. -/
  | unformatted {fault : Fault} (hreports : s.reports found ≠ [])
      (hformat : formatReports s (s.reports found) = .error fault) :
      Ending s found (.failed found.files (s.complaints found) fault)
  /-- The report is the output. -/
  | printed (hreports : s.reports found ≠ []) (hfile : s.outputFile = none)
      (hroom : Room.outcome found.outputRoom (RawText.ofText (s.reportText found)).bytes = .ok ()) :
      Ending s found ⟨.ok (s.outcome found), s.reportText found, s.complaints found, found.files⟩
  /-- Some of the report is the output. -/
  | unprinted {cause : FileFault} (hreports : s.reports found ≠ []) (hfile : s.outputFile = none)
      (hroom : Room.outcome found.outputRoom (RawText.ofText (s.reportText found)).bytes =
        .error cause) :
      Ending s found ⟨.error (.standardOutput cause),
        ⟨Room.taken found.outputRoom (RawText.ofText (s.reportText found)).bytes⟩,
        s.complaints found, found.files⟩
  /-- The report is written to a file. -/
  | written {path : RawText} {files : FileTree} (hreports : s.reports found ≠ [])
      (hfile : s.outputFile = some path)
      (hwrite : found.files.writeText found.fileRoom path (s.reportText found) =
        ⟨files, .ok ()⟩) :
      Ending s found ⟨.ok (s.outcome found), "",
        s.complaints found ++ (if s.quiet then [] else [.written path]), files⟩
  /-- The report, or a part of it, cannot be written to a file. -/
  | unwritten {path : RawText} {files : FileTree} {cause : FileFault}
      (hreports : s.reports found ≠ []) (hfile : s.outputFile = some path)
      (hwrite : found.files.writeText found.fileRoom path (s.reportText found) =
        ⟨files, .error cause⟩) :
      Ending s found (.failed files (s.complaints found) (.outputWrite path.shown cause))

theorem outcome_eq_inputFailures_iff :
    s.outcome found = .inputFailures ↔ ∃ input ∈ s.inputs, found.files.modules? input = none := by
  rw [outcome, outcomeOf]
  by_cases hnil : s.complaints found = []
  · have hloaded := complaints_eq_nil_iff.1 hnil
    have hnone : ¬ ∃ input ∈ s.inputs, found.files.modules? input = none := by
      rintro ⟨input, hinput, hmodules⟩
      exact hloaded input hinput hmodules
    rw [hnil]
    simp only [List.isEmpty_nil, Bool.not_true, Bool.false_eq_true, if_false, hnone, iff_false]
    split
    · exact nofun
    · exact nofun
  · have hsome : ∃ input ∈ s.inputs, found.files.modules? input = none := by
      by_contra hnone
      refine hnil (complaints_eq_nil_iff.2 ?_)
      intro input hinput hmodules
      exact hnone ⟨input, hinput, hmodules⟩
    simp [hnil, hsome]

theorem any_hasErrors_iff
    (hpatterns : ∀ text ∈ s.analysis.excludePatterns, ∃ glob, Glob.parse text = .ok glob) :
    ((s.reports found).map (·.2)).any (·.result.hasErrors) = true ↔ s.MeetsFlaw found := by
  rw [List.any_eq_true]
  constructor
  · rintro ⟨report, hreport, herrors⟩
    obtain ⟨input, hinput, modules, hmodules, hresult⟩ := exists_of_mem_reports hreport
    rw [hresult] at herrors
    obtain ⟨hskip, hbad⟩ := (AnalysisConfig.hasErrors_analyze_iff hpatterns).1 herrors
    exact ⟨hskip, input, hinput, modules, hmodules, hbad⟩
  · rintro ⟨hskip, input, hinput, modules, hmodules, hbad⟩
    obtain ⟨report, hreport, hresult⟩ := exists_mem_reports hinput hmodules
    refine ⟨report, hreport, ?_⟩
    rw [hresult]
    exact (AnalysisConfig.hasErrors_analyze_iff hpatterns).2 ⟨hskip, hbad⟩

/-- Where every input can be loaded, only a flawed name makes a difference. -/
theorem outcome_of_loaded
    (hpatterns : ∀ text ∈ s.analysis.excludePatterns, ∃ glob, Glob.parse text = .ok glob)
    (hloaded : ∀ input ∈ s.inputs, found.files.modules? input ≠ none) :
    (s.MeetsFlaw found → s.outcome found = .analysisErrors) ∧
      (¬ s.MeetsFlaw found → s.outcome found = .clean) := by
  have hany : ((s.reports found).map (·.2)).any (·.result.hasErrors) = true ↔ s.MeetsFlaw found :=
    any_hasErrors_iff hpatterns
  rw [outcome, outcomeOf, complaints_eq_nil_iff.2 hloaded]
  constructor
  · intro hflaw
    rw [hany.2 hflaw]
    rfl
  · intro hflaw
    have hnot : ((s.reports found).map (·.2)).any (·.result.hasErrors) = false :=
      Bool.eq_false_iff.2 fun h => hflaw (hany.1 h)
    rw [hnot]
    rfl

/-- The one text that reports can be put together to. -/
theorem formatReports_eq {text : String} (h : formatReports s (s.reports found) = .ok text) :
    text = s.reportText found := by
  rw [formatReports] at h
  by_cases hnames : (s.outputFormat == .json && (s.reports found).any (·.1.text?.isNone)) = true
  · rw [if_pos hnames] at h
    cases h
  · rw [if_neg hnames] at h
    exact (Except.ok.inj h).symm

namespace Ending

variable {e : Execution} (h : s.Ending found e)
include h

/-- Nothing is written if there is nothing to report. -/
theorem output_of_nil (hreports : s.reports found = []) :
    e.output = "" ∧ e.files = found.files := by
  cases h with
  | silent _ => exact ⟨rfl, rfl⟩
  | unformatted hsome _ => exact absurd hreports hsome
  | printed hsome _ _ => exact absurd hreports hsome
  | unprinted hsome _ _ => exact absurd hreports hsome
  | written hsome _ _ => exact absurd hreports hsome
  | unwritten hsome _ _ => exact absurd hreports hsome

/-- A run that comes to its end has handed its report over, if there is any. -/
theorem handed_over {outcome : Outcome} (hok : e.outcome = .ok outcome)
    (hreports : s.reports found ≠ []) :
    (s.outputFile = none → e.output = s.reportText found ∧ e.files = found.files) ∧
      ∀ path, s.outputFile = some path → e.output = "" ∧
        found.files.writeText found.fileRoom path (s.reportText found) = ⟨e.files, .ok ()⟩ := by
  cases h with
  | silent hnil => exact absurd hnil hreports
  | unformatted _ _ => cases hok
  | printed _ hfile _ =>
      refine ⟨fun _ => ⟨rfl, rfl⟩, ?_⟩
      intro path hpath
      rw [hfile] at hpath
      cases hpath
  | unprinted _ _ _ => cases hok
  | written _ hfile hwrite =>
      refine ⟨?_, ?_⟩
      · intro hnone
        rw [hnone] at hfile
        cases hfile
      · intro path hpath
        rw [hfile] at hpath
        cases hpath
        exact ⟨rfl, hwrite⟩
  | unwritten _ _ _ => cases hok

/-- A run that comes to its end and has something to report and a file for it has written it. -/
theorem holds {outcome : Outcome} {path : RawText} (hok : e.outcome = .ok outcome)
    (hreports : s.reports found ≠ []) (hpath : s.outputFile = some path) :
    e.files.Holds path (RawText.ofText (s.reportText found)).bytes :=
  (FileTree.filled_of_writeText ((h.handed_over hok hreports).2 path hpath).2).holds

/-- A run whose report can be put together and handed over comes to its end. -/
theorem outcome_eq (hreport : s.CanReport found) : e.outcome = .ok (s.outcome found) := by
  cases h with
  | silent _ => rfl
  | unformatted hreports herror =>
      rw [(hreport hreports).1] at herror
      cases herror
  | printed _ _ _ => rfl
  | unprinted hreports hfile herror =>
      rw [(hreport hreports).2.1 hfile] at herror
      cases herror
  | written _ _ _ => rfl
  | unwritten hreports hfile herror =>
      have hok := (hreport hreports).2.2 _ hfile
      rw [herror] at hok
      cases hok

end Ending

end Settings

variable {s : Settings} {found : Surroundings}

theorem analyzeWith_eq (hinputs : s.inputs ≠ []) :
    analyzeWith s found =
      if (s.reports found).isEmpty then
        ⟨.ok (s.outcome found), "", s.complaints found, found.files⟩
      else
        match formatReports s (s.reports found) with
        | .error fault => .failed found.files (s.complaints found) fault
        | .ok text => deliver s found (s.complaints found) (s.outcome found) text := by
  have hsome : s.inputs.isEmpty = false := by simpa using hinputs
  rw [analyzeWith, hsome, if_neg Bool.false_ne_true]
  simp only [Settings.filterMap_reportOf?, Settings.filterMap_noticeOf?]
  rfl

/-- A report is handed over, or it is not. -/
theorem ending_deliver (hreports : s.reports found ≠ []) :
    s.Ending found
      (deliver s found (s.complaints found) (s.outcome found) (s.reportText found)) := by
  rw [deliver]
  cases hfile : s.outputFile with
  | none =>
      simp only
      cases hroom : Room.outcome found.outputRoom (RawText.ofText (s.reportText found)).bytes with
      | error cause => exact .unprinted hreports hfile hroom
      | ok _ => exact .printed hreports hfile hroom
  | some path =>
      simp only [writeOutput, FileAttempt.mapError]
      rcases hwrite : found.files.writeText found.fileRoom path (s.reportText found) with ⟨files, r⟩
      cases r with
      | error cause => exact .unwritten hreports hfile hwrite
      | ok _ => exact .written hreports hfile hwrite

/-- A run with inputs ends in one of these ways. -/
theorem ending_analyzeWith (hinputs : s.inputs ≠ []) : s.Ending found (analyzeWith s found) := by
  rw [analyzeWith_eq hinputs]
  by_cases hreports : s.reports found = []
  · rw [if_pos (List.isEmpty_iff.2 hreports)]
    exact .silent hreports
  · rw [if_neg fun h => hreports (List.isEmpty_iff.1 h)]
    cases hformat : formatReports s (s.reports found) with
    | error fault => exact .unformatted hreports hformat
    | ok text =>
        obtain rfl := Settings.formatReports_eq hformat
        exact ending_deliver hreports

theorem execute_of_settings {a : Arguments} (hinit : a.init = false)
    (hload : loadSettings found EnvironmentSettings.defaultStem a = .ok s) :
    execute found a = analyzeWith s found := by
  rw [execute, hinit, if_neg Bool.false_ne_true, hload]

/-! ### Time -/

/-- Only JSON shows the time. -/
theorem Layout.format_map_untimed (layout : Layout) {format : OutputFormat} (h : format ≠ .json)
    (rs : List Report) :
    layout.format (rs.map Report.untimed) format = layout.format rs format := by
  cases format with
  | json => exact absurd rfl h
  | text =>
      rw [Layout.format, Layout.format, Layout.text, Layout.text, List.map_map, List.map_map]
      rfl
  | csv =>
      rw [Layout.format, Layout.format, Report.csvText, Report.csvText, Report.csvRows,
        Report.csvRows, List.flatMap_map]
      rfl
  | dot =>
      rw [Layout.format, Layout.format, Report.dotText, Report.dotText, List.map_map]
      rfl

section Time

variable {found' : Surroundings} (hfiles : found'.files = found.files) (parallel : Bool)
include hfiles

/-- The time apart, the reports are the same whenever the files are. -/
theorem map_untimed_reports_congr :
    (Settings.reports { s with parallel } found').map (fun r => (r.1, r.2.untimed)) =
      (s.reports found).map (fun r => (r.1, r.2.untimed)) := by
  rw [Settings.map_untimed_reports, Settings.map_untimed_reports, hfiles]

theorem any_hasErrors_congr :
    ((Settings.reports { s with parallel } found').map (·.2)).any (·.result.hasErrors) =
      ((s.reports found).map (·.2)).any (·.result.hasErrors) := by
  have h := congrArg (List.any · (·.2.result.hasErrors))
    (map_untimed_reports_congr (s := s) hfiles parallel)
  simp only [List.any_map] at h ⊢
  exact h

theorem formatReports_congr (hclock : s.outputFormat = .json → found'.clock = found.clock) :
    formatReports { s with parallel } (Settings.reports { s with parallel } found') =
      formatReports s (s.reports found) := by
  by_cases hjson : s.outputFormat = .json
  · have hreports : Settings.reports { s with parallel } found' = s.reports found := by
      rw [Settings.reports, Settings.reports, hfiles, hclock hjson]
    rw [hreports]
    rfl
  · have huntimed := congrArg (List.map (·.2))
      (map_untimed_reports_congr (s := s) hfiles parallel)
    have hother : (s.outputFormat == .json) = false := by simpa using hjson
    simp only [List.map_map] at huntimed
    rw [formatReports, formatReports, hother]
    simp only [Bool.false_and, Bool.false_eq_true, if_false]
    rw [← Layout.format_map_untimed _ hjson, ← Layout.format_map_untimed s.layout hjson,
      List.map_map, List.map_map]
    exact congrArg (fun rs => Except.ok (s.layout.format rs s.outputFormat)) huntimed

/-- What a run does depends on the files and on what can be written.  It depends on the time only if
its report is JSON, and on whether inputs are analysed at once not at all. -/
theorem analyzeWith_congr (hfileRoom : found'.fileRoom = found.fileRoom)
    (houtputRoom : found'.outputRoom = found.outputRoom)
    (hclock : s.outputFormat = .json → found'.clock = found.clock) :
    analyzeWith { s with parallel } found' = analyzeWith s found := by
  by_cases hinputs : s.inputs = []
  · rw [analyzeWith, analyzeWith, hinputs, hfiles]
    rfl
  · have hcomplaints : Settings.complaints { s with parallel } found' = s.complaints found := by
      rw [Settings.complaints, Settings.complaints, hfiles]
    have houtcome : Settings.outcome { s with parallel } found' = s.outcome found := by
      rw [Settings.outcome, Settings.outcome, outcomeOf, outcomeOf, hcomplaints,
        any_hasErrors_congr hfiles parallel]
    have hempty : (Settings.reports { s with parallel } found').isEmpty =
        (s.reports found).isEmpty := by
      have h := congrArg List.isEmpty (map_untimed_reports_congr (s := s) hfiles parallel)
      simpa using h
    have hdeliver (text : String) :
        deliver { s with parallel } found' (s.complaints found) (s.outcome found) text =
          deliver s found (s.complaints found) (s.outcome found) text := by
      rw [deliver, deliver, hfiles, hfileRoom, houtputRoom]
    rw [analyzeWith_eq (s := { s with parallel }) hinputs, analyzeWith_eq hinputs, hempty, houtcome,
      hcomplaints, hfiles, formatReports_congr hfiles parallel hclock]
    simp only [hdeliver]

end Time

/-! ### Runs -/

/-- **Exit status and output of a run.**  Take a run that has settings and inputs, and whose report,
if there is any, can be put together and written.  Its exit status is two exactly if some input
cannot be loaded; if all can, it is one exactly if flawed names are not skipped and some input lists
a module that fails its check and that no pattern excludes, and it is zero otherwise.  What is
written, to the file for it or as output, is the text of the reports on the inputs that can be
loaded, in their order, and the settings ask for one of four forms; nothing is written if there are
no reports.  Another run on the same files, whose settings differ only in whether inputs may be
analysed at once, has the same reports, the time of each apart, and does the same unless its report
is JSON and the time differs.  All texts in the settings that should be patterns are patterns, and
so no error in a report is about one. -/
theorem run_reports_loaded_inputs (found : Surroundings) (a : Arguments) (s : Settings)
    (hinit : a.init = false)
    (hload : loadSettings found EnvironmentSettings.defaultStem a = .ok s)
    (hinputs : s.inputs ≠ []) (hreport : s.CanReport found) :
    let e := execute found a
    let reports := (s.reports found).map (·.2)
    let text := s.reportText found
    (e.exitStatus = 2 ↔ ∃ input ∈ s.inputs, found.files.modules? input = none) ∧
    ((∀ input ∈ s.inputs, found.files.modules? input ≠ none) →
      (e.exitStatus = 1 ↔ s.MeetsFlaw found) ∧ (e.exitStatus = 0 ↔ ¬ s.MeetsFlaw found)) ∧
    (reports = [] → e.output = "" ∧ e.files = found.files) ∧
    (reports ≠ [] →
      (s.outputFile = none → e.output = text ∧ e.files = found.files) ∧
      ∀ path, s.outputFile = some path → e.output = "" ∧
        e.files.Holds path (RawText.ofText text).bytes) ∧
    (s.outputFormat = .text → s.quiet = true →
      text = String.join (reports.map (Report.line s.useColors))) ∧
    (s.outputFormat = .text → s.quiet = false →
      text = "\n".intercalate
        (reports.map (Report.text s.useColors s.verbose s.externalLimit))) ∧
    (s.outputFormat = .json → text = Report.jsonText true reports) ∧
    (s.outputFormat = .csv → text = Report.csvText reports) ∧
    (s.outputFormat = .dot → text = Report.dotText reports) ∧
    (∀ (found' : Surroundings) (a' : Arguments) (s' : Settings), found'.files = found.files →
      found'.fileRoom = found.fileRoom → found'.outputRoom = found.outputRoom → a'.init = false →
      loadSettings found' EnvironmentSettings.defaultStem a' = .ok s' →
      (∃ parallel, s' = { s with parallel }) →
      (s'.reports found').map (fun r => (r.1, r.2.untimed)) =
        (s.reports found).map (fun r => (r.1, r.2.untimed)) ∧
      ((s.outputFormat = .json → found'.clock = found.clock) → execute found' a' = e)) ∧
    (∀ text ∈ s.analysis.excludePatterns, ∃ glob, Glob.parse text = .ok glob) ∧
    ∀ report ∈ reports, ∀ flaw : Glob.Flaw,
      "Dependency analysis failed: " ++ (Fault.pattern flaw).message ∉ report.result.errors := by
  intro e reports text
  have hrun : e = analyzeWith s found := execute_of_settings hinit hload
  have hending : s.Ending found e := hrun ▸ ending_analyzeWith hinputs
  have hpatterns := Settings.exists_glob_of_check (check_of_loadSettings hload)
  have houtcome : e.outcome = .ok (s.outcome found) := hending.outcome_eq hreport
  have hstatus : e.exitStatus = (s.outcome found).exitStatus := by
    rw [Execution.exitStatus, houtcome]
  have hformat : text = s.layout.format reports s.outputFormat := rfl
  refine ⟨?_, fun hloaded => ?_, fun hnil => ?_, fun hsome => ?_, fun hform hquiet => ?_,
    fun hform hquiet => ?_, fun hform => ?_, fun hform => ?_, fun hform => ?_, ?_, hpatterns, ?_⟩
  · rw [hstatus, ← Settings.outcome_eq_inputFailures_iff]
    cases s.outcome found <;> decide
  · obtain ⟨hflawed, hclean⟩ := Settings.outcome_of_loaded hpatterns hloaded
    by_cases hflaw : s.MeetsFlaw found
    · simp [hstatus, hflawed hflaw, Outcome.exitStatus, hflaw]
    · simp [hstatus, hclean hflaw, Outcome.exitStatus, hflaw]
  · exact hending.output_of_nil (List.map_eq_nil_iff.1 hnil)
  · have hreports : s.reports found ≠ [] := fun hnil => hsome (List.map_eq_nil_iff.2 hnil)
    obtain ⟨hprinted, hwritten⟩ := hending.handed_over houtcome hreports
    refine ⟨hprinted, ?_⟩
    intro path hpath
    exact ⟨(hwritten path hpath).1, hending.holds houtcome hreports hpath⟩
  · rw [hformat, hform, Layout.format, Layout.text, show s.layout.quiet = true from hquiet]
    rfl
  · rw [hformat, hform, Layout.format, Layout.text, show s.layout.quiet = false from hquiet]
    rfl
  · rw [hformat, hform, Layout.format]
  · rw [hformat, hform, Layout.format]
  · rw [hformat, hform, Layout.format]
  · rintro found' a' s' hfiles hfileRoom houtputRoom hinit' hload' ⟨parallel, rfl⟩
    refine ⟨map_untimed_reports_congr hfiles parallel, fun hclock => ?_⟩
    rw [execute_of_settings hinit' hload', hrun]
    exact analyzeWith_congr hfiles parallel hfileRoom houtputRoom hclock
  · intro report hreport flaw
    obtain ⟨input, -, modules, -, hresult⟩ := Settings.exists_of_mem_reports hreport
    rw [hresult]
    exact AnalysisConfig.pattern_notMem_errors hpatterns flaw

/-- Of four inputs the first one may not be read and the second one is no module list: the report is
on the other two.  The name of the only module in the third one is flawed, which counts only where
the first two are left out.  At another time, and one by one, the inputs give the same table. -/
theorem run_reports_sound_and_flawed :
    let text (content : String) : FileBody := .ofBytes (RawText.ofText content).bytes
    let files : FileTree := ⟨[], .free,
      [(["a"], .file 0), (["b"], .file 1), (["c"], .file 2), (["d"], .file 3)],
      [(0, text "[[\"a\"]]"), (1, text "[[\"b.\"]]"), (2, text "?"),
        (3, ⟨[], true, ⟨some .permissionDenied, none, none⟩⟩)]⟩
    let found : Surroundings := ⟨files, [], ⟨none, none⟩, fun _ => "now", none, none⟩
    let a : Arguments := { Arguments.empty with
      inputs := ["d", "c", "b", "a"], output := some .csv, outputFile := some "e" }
    let s : Settings :=
      ⟨["d", "c", "b", "a"], .csv, some "e", true, false, false, true, 10, ⟨[], [], false⟩⟩
    loadSettings found EnvironmentSettings.defaultStem a = .ok s ∧
    (s.reports found).map (·.1) = ["b", "a"] ∧
    (execute found a).exitStatus = 2 ∧
    (execute found a).files.Holds "e"
      (RawText.ofText (Report.csvText ((s.reports found).map (·.2)))).bytes ∧
    execute { found with clock := fun _ => "later" } { a with noParallel := true } =
      execute found a ∧
    (execute found { a with inputs := ["b", "a"] }).exitStatus = 1 := by
  intro text files found a s
  have hload : loadSettings found EnvironmentSettings.defaultStem a = .ok s :=
    eq_ok_of_toOption (by decide +kernel)
  have hload₂ : loadSettings found EnvironmentSettings.defaultStem
      { a with inputs := ["b", "a"] } = .ok { s with inputs := ["b", "a"] } :=
    eq_ok_of_toOption (by decide +kernel)
  have hload₃ : loadSettings { found with clock := fun _ => "later" }
      EnvironmentSettings.defaultStem { a with noParallel := true } =
        .ok { s with parallel := false } :=
    eq_ok_of_toOption (by decide +kernel)
  have hreports : (s.reports found).map (·.1) = ["b", "a"] := by
    decide +kernel
  have hsome : (s.reports found).map (·.2) ≠ [] := by
    intro hnil
    rw [List.map_eq_nil_iff.1 hnil] at hreports
    cases hreports
  -- a table can be put together of any reports, and any text can be written to the file for it
  have hcan (inputs : List RawText) : Settings.CanReport { s with inputs } found := by
    intro _
    refine ⟨rfl, fun hnone => ?_, ?_⟩
    · cases hnone
    · intro path hpath
      cases hpath
      exact FileTree.outcome_writeText (by decide +kernel) none _
  obtain ⟨htwo, -, -, hwritten, -, -, -, hcsv, -, hparallel, -⟩ :=
    run_reports_loaded_inputs found a s rfl hload (by decide) (hcan s.inputs)
  obtain ⟨-, hone, -⟩ :=
    run_reports_loaded_inputs found { a with inputs := ["b", "a"] } { s with inputs := ["b", "a"] }
      rfl hload₂ (by decide) (hcan ["b", "a"])
  refine ⟨hload, hreports, ?_, ?_, ?_, ?_⟩
  · exact htwo.2 ⟨"d", by decide, by decide +kernel⟩
  · rw [← hcsv rfl]
    exact ((hwritten hsome).2 "e" rfl).2
  · exact (hparallel { found with clock := fun _ => "later" } { a with noParallel := true } _
      rfl rfl rfl rfl hload₃ ⟨false, rfl⟩).2 fun hjson => by cases hjson
  · exact (hone (by decide +kernel)).1.2
      ⟨rfl, "b", by decide, [⟨"b.", "", []⟩], by decide +kernel, _, List.mem_singleton_self _,
        ⟨_, rfl⟩, rfl⟩

end ModuleDeps
