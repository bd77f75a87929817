/-
What a run changes.

A run without settings, or whose settings name no input, stops before it has done anything.  Any
other run reads all its inputs first; the one thing that it may write is its report, at the end and
to the file for it.  A run that fails in any other way than in writing this file has changed
nothing.  One that fails in writing it may leave a beginning of the report there, and one that comes
to its end leaves the whole report.  The file may be one of the inputs, which has been read by then.

Main definitions:

* `ModuleDeps.Settings.Writes` — how a run leaves the file for its report.

Main results:

* `ModuleDeps.execute_cases` — a run stops at once, or it ends in one of the ways of its settings;
* `ModuleDeps.files_execute_cases` — the files after a run;
* `ModuleDeps.run_changes_output_file_only` — **a run changes the file for its report only**.
-/

import ModuleDeps.Proofs.RunOutcomes

set_option relaxedAutoImplicit false
set_option autoImplicit false

namespace ModuleDeps

variable {s : Settings} {found : Surroundings}

/-- A run that makes no settings file stops at once, or it ends in one of the ways of its
settings. -/
theorem execute_cases {a : Arguments} (hinit : a.init = false) :
    (∃ fault, execute found a = .failed found.files [] fault) ∨
      ∃ s, loadSettings found EnvironmentSettings.defaultStem a = .ok s ∧
        s.Ending found (execute found a) := by
  cases hload : loadSettings found EnvironmentSettings.defaultStem a with
  | error fault =>
      refine Or.inl ⟨fault, ?_⟩
      rw [execute, hinit, if_neg Bool.false_ne_true, hload]
  | ok s =>
      rw [execute_of_settings hinit hload]
      by_cases hinputs : s.inputs = []
      · left
        rw [analyzeWith, hinputs, List.isEmpty_nil, if_pos rfl]
        exact ⟨_, rfl⟩
      · exact Or.inr ⟨s, rfl, ending_analyzeWith hinputs⟩

/-- A run leaves a beginning of its report, or all of it, in the file for it. -/
structure Settings.Writes (s : Settings) (found : Surroundings) (path : RawText)
    (bytes : List UInt8) (e : Execution) : Prop where
  /-- There is a file for the report. -/
  outputFile : s.outputFile = some path
  /-- There is something to report. -/
  reports : s.reports found ≠ []
  /-- The bytes are in the file, and nothing else has changed. -/
  filled : found.files.Filled path bytes e.files
  /-- They are a beginning of the report. -/
  beginning : bytes <+: (RawText.ofText (s.reportText found)).bytes
  /-- If the run has failed, then it has failed to write the others. -/
  fault_eq : ∀ fault, e.outcome = .error fault → ∃ cause, fault = .outputWrite path.shown cause

/-- The files after an ending: what was found, or this with some of the report in the file for
it. -/
theorem Settings.Ending.files_cases {e : Execution} (h : s.Ending found e) :
    e.files = found.files ∨ ∃ path bytes, s.Writes found path bytes e := by
  cases h with
  | silent _ => exact Or.inl rfl
  | unformatted _ _ => exact Or.inl rfl
  | printed _ _ _ => exact Or.inl rfl
  | unprinted _ _ _ => exact Or.inl rfl
  | @written path files hreports hfile hwrite =>
      refine Or.inr ⟨path, _, hfile, hreports, FileTree.filled_of_writeText hwrite,
        List.prefix_rfl, ?_⟩
      intro fault hfault
      cases hfault
  | @unwritten path files cause hreports hfile hwrite =>
      rcases found.files.writeText_cases found.fileRoom path (s.reportText found) with
        ⟨cause', herror⟩ | ⟨t', hfilled, htaken⟩
      · rw [hwrite] at herror
        exact Or.inl (FileAttempt.mk.inj herror).1
      · rw [hwrite] at htaken
        obtain ⟨rfl, -⟩ := FileAttempt.mk.inj htaken
        refine Or.inr ⟨path, _, hfile, hreports, hfilled, Room.taken_prefix _ _, ?_⟩
        intro fault hfault
        exact ⟨cause, (Except.error.inj hfault).symm⟩

/-- The files after a run: what was found, or this with some of the report in the file for it. -/
theorem files_execute_cases {a : Arguments} (hinit : a.init = false) :
    (execute found a).files = found.files ∨
      ∃ s path bytes, loadSettings found EnvironmentSettings.defaultStem a = .ok s ∧
        s.Writes found path bytes (execute found a) := by
  rcases execute_cases hinit with ⟨fault, hstop⟩ | ⟨s, hload, hending⟩
  · rw [hstop]
    exact Or.inl rfl
  · refine hending.files_cases.imp_right ?_
    rintro ⟨path, bytes, hwrites⟩
    exact ⟨s, path, bytes, hload, hwrites⟩

/-- A run that comes to its end does so as its inputs say. -/
theorem Settings.Ending.outcome_of_ok {e : Execution} {outcome : Outcome} (h : s.Ending found e)
    (hok : e.outcome = .ok outcome) : outcome = s.outcome found := by
  cases h with
  | silent _ => exact (Except.ok.inj hok).symm
  | unformatted _ _ => cases hok
  | printed _ _ _ => exact (Except.ok.inj hok).symm
  | unprinted _ _ _ => cases hok
  | written _ _ _ => exact (Except.ok.inj hok).symm
  | unwritten _ _ _ => cases hok

/-- **A run changes the file for its report only.**  Take any run that makes no settings file.  All
places keep what stands there, except that a new file may stand at the place to which the path of
the file for the report leads.  All files keep what they hold, except the one that this path names.
Paths that named something name the same.  Nothing at all changes if the run fails in another way
than in writing its report to a file, if no input can be loaded, or if there is no file for the
report.  If the run fails in writing its report, then nothing has changed or the file holds a
beginning of it.  If it comes to its end and has something to report, then the file holds the whole
report.  In both cases this is the report on what all inputs held before the run. -/
theorem run_changes_output_file_only (found : Surroundings) (a : Arguments)
    (hinit : a.init = false) :
    let e := execute found a
    let settings := loadSettings found EnvironmentSettings.defaultStem a
    e.files.workingDirectory = found.files.workingDirectory ∧
    (∀ place, (∀ s path target, settings = .ok s → s.outputFile = some path →
        found.files.locate true path = .ok target → place ≠ target.place) →
      e.files.lookup? place = found.files.lookup? place) ∧
    (∀ place number, found.files.lookup? place = some (.file number) →
      (∀ s path, settings = .ok s → s.outputFile = some path →
        found.files.find path ≠ .ok (.file number)) →
      e.files.body number = found.files.body number) ∧
    (∀ path entry, found.files.find path = .ok entry → e.files.find path = .ok entry) ∧
    (∀ fault, e.outcome = .error fault → (∀ path cause, fault ≠ .outputWrite path cause) →
      e.files = found.files) ∧
    (∀ s, settings = .ok s → (∀ input ∈ s.inputs, found.files.modules? input = none) →
      e.files = found.files) ∧
    (∀ s, settings = .ok s → s.outputFile = none → e.files = found.files) ∧
    (∀ shown cause, e.outcome = .error (.outputWrite shown cause) → e.files = found.files ∨
      ∃ s path bytes, settings = .ok s ∧ s.outputFile = some path ∧ shown = path.shown ∧
        bytes <+: (RawText.ofText (s.reportText found)).bytes ∧ e.files.Holds path bytes) ∧
    ∀ s path outcome, settings = .ok s → s.outputFile = some path → e.outcome = .ok outcome →
      (∃ input ∈ s.inputs, found.files.modules? input ≠ none) →
      outcome = s.outcome found ∧
        e.files.Holds path (RawText.ofText (s.reportText found)).bytes := by
  intro e settings
  have hcases : e.files = found.files ∨ ∃ s path bytes, settings = .ok s ∧
      s.Writes found path bytes e := files_execute_cases hinit
  have hextends : found.files.Extends e.files := by
    rcases hcases with hfiles | ⟨s, path, bytes, -, hwrites⟩
    · rw [hfiles]
      exact .refl found.files
    · exact hwrites.filled.toExtends
  refine ⟨hextends.workingDirectory, ?_, ?_, fun _ _ => hextends.find, ?_, ?_, ?_, ?_, ?_⟩
  · intro place hplace
    rcases hcases with hfiles | ⟨s, path, bytes, hload, hwrites⟩
    · rw [hfiles]
    · refine hwrites.filled.lookup?_eq ?_
      intro target htarget
      exact hplace s path target hload hwrites.outputFile htarget
  · intro place number hfile hother
    rcases hcases with hfiles | ⟨s, path, bytes, hload, hwrites⟩
    · rw [hfiles]
    · exact hwrites.filled.body_eq hfile (hother s path hload hwrites.outputFile)
  · intro fault hfault hother
    refine hcases.resolve_right ?_
    rintro ⟨s, path, bytes, -, hwrites⟩
    obtain ⟨cause, hwrite⟩ := hwrites.fault_eq fault hfault
    exact hother path.shown cause hwrite
  · intro s hload hinputs
    refine hcases.resolve_right ?_
    rintro ⟨s', path, bytes, hload', hwrites⟩
    obtain rfl : s = s' := Except.ok.inj (hload.symm.trans hload')
    exact hwrites.reports (Settings.reports_eq_nil_iff.2 hinputs)
  · intro s hload hnone
    refine hcases.resolve_right ?_
    rintro ⟨s', path, bytes, hload', hwrites⟩
    obtain rfl : s = s' := Except.ok.inj (hload.symm.trans hload')
    have hpath := hwrites.outputFile
    rw [hnone] at hpath
    cases hpath
  · intro shown cause hfault
    refine hcases.imp_right ?_
    rintro ⟨s, path, bytes, hload, hwrites⟩
    obtain ⟨cause', hwrite⟩ := hwrites.fault_eq _ hfault
    exact ⟨s, path, bytes, hload, hwrites.outputFile, (Fault.outputWrite.inj hwrite).1,
      hwrites.beginning, hwrites.filled.holds⟩
  · rintro s path outcome hload hpath hok ⟨input, hinput, hmodules⟩
    have hreports : s.reports found ≠ [] := fun hnil =>
      hmodules (Settings.reports_eq_nil_iff.1 hnil input hinput)
    have hending : s.Ending found e := by
      rw [show e = analyzeWith s found from execute_of_settings hinit hload]
      exact ending_analyzeWith (List.ne_nil_of_mem hinput)
    exact ⟨hending.outcome_of_ok hok, hending.holds hok hreports hpath⟩

/-- The report is written over an input, to which a link leads: it is on the one module that was
listed there, and the other input keeps its place and its text.  Where this other one is the only
input, or where what should be a pattern is none, all stays as it is. -/
theorem run_changes_input_that_is_output :
    let text (content : String) : FileBody := .ofBytes (RawText.ofText content).bytes
    let files : FileTree := ⟨[], .free,
      [(["a"], .file 0), (["b"], .file 1), (["c"], .link "./a")],
      [(0, text "[[\"a\"]]"), (1, text "?")]⟩
    let found : Surroundings := ⟨files, [], ⟨none, none⟩, fun _ => "now", none, none⟩
    let a : Arguments :=
      { Arguments.empty with inputs := ["b", "a"], output := some .csv, outputFile := some "c" }
    let s : Settings :=
      ⟨["b", "a"], .csv, some "c", true, false, false, true, 10, ⟨[], [], false⟩⟩
    loadSettings found EnvironmentSettings.defaultStem a = .ok s ∧
    (s.reports found).map (fun r => (r.2.input, r.2.moduleCount)) = [("a", 1)] ∧
    (execute found a).files.Holds "c" (RawText.ofText (s.reportText found)).bytes ∧
    (execute found a).files.find "a" = .ok (.file 0) ∧
    (execute found a).files.lookup? ["b"] = some (.file 1) ∧
    (execute found a).files.body 1 = text "?" ∧
    (execute found { a with inputs := ["b"] }).files = files ∧
    (execute found { a with exclude := ["["] }).files = files := by
  intro text files found a s
  have hload : loadSettings found EnvironmentSettings.defaultStem a = .ok s :=
    eq_ok_of_toOption (by decide +kernel)
  have hload₂ : loadSettings found EnvironmentSettings.defaultStem
      { a with inputs := ["b"] } = .ok { s with inputs := ["b"] } :=
    eq_ok_of_toOption (by decide +kernel)
  have hok : (execute found a).outcome = .ok .inputFailures :=
    eq_ok_of_toOption (by decide +kernel)
  have hlink : found.files.locate true "c" = .ok ⟨["a"], false⟩ :=
    eq_ok_of_toOption (by decide +kernel)
  have hfile : found.files.find "c" = .ok (.file 0) := eq_ok_of_toOption (by decide +kernel)
  obtain ⟨-, hplaces, hbodies, hpaths, -, -, -, -, hwritten⟩ :=
    run_changes_output_file_only found a rfl
  refine ⟨hload, by decide +kernel, ?_, ?_, ?_, ?_, ?_, ?_⟩
  · exact (hwritten s "c" _ hload rfl hok ⟨"a", by decide, by decide +kernel⟩).2
  · exact hpaths "a" _ (eq_ok_of_toOption (by decide +kernel))
  · refine (hplaces ["b"] ?_).trans (by decide +kernel)
    intro s' path target hload' hpath htarget
    obtain rfl : s = s' := Except.ok.inj (hload.symm.trans hload')
    cases hpath
    obtain rfl := Except.ok.inj (hlink.symm.trans htarget)
    decide
  · refine (hbodies ["b"] 1 (by decide +kernel) ?_).trans (by decide +kernel)
    intro s' path hload' hpath hother
    obtain rfl : s = s' := Except.ok.inj (hload.symm.trans hload')
    cases hpath
    cases Except.ok.inj (hfile.symm.trans hother)
  · obtain ⟨-, -, -, -, -, hunloaded, -⟩ :=
      run_changes_output_file_only found { a with inputs := ["b"] } rfl
    exact hunloaded _ hload₂ (by decide +kernel)
  · obtain ⟨-, -, -, -, hfailed, -⟩ :=
      run_changes_output_file_only found { a with exclude := ["["] } rfl
    refine hfailed (.settings ("Invalid exclude pattern '[': Pattern syntax error near " ++
      "position 0: invalid range pattern")) (by decide +kernel) ?_
    intro path cause hfault
    cases hfault

end ModuleDeps
