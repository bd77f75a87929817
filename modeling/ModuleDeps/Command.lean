/-
The work of a command line, as a function of what it finds.

What a run leaves is a tree of files, an output, notices and an exit status.  It makes a settings
file, or it analyses the inputs one by one and writes one report on all that could be read.  Nothing
is written before all inputs have been read and the report on them has been put together.

Main definitions:

* `ModuleDeps.readModules`, `ModuleDeps.analyzeInputs` — the modules of an input, and the reports on
  several;
* `ModuleDeps.analyzeAll` — the reports on the inputs that settings name, one by one or at once;
* `ModuleDeps.formatReports`, `ModuleDeps.deliver` — the text of reports, and handing it over;
* `ModuleDeps.Execution`, `ModuleDeps.execute` — what a run leaves;
* `ModuleDeps.Execution.exitStatus`, `ModuleDeps.Execution.allNotices` — how it ends.
-/

import ModuleDeps.ModuleList
import ModuleDeps.Settings.Load

set_option relaxedAutoImplicit false
set_option autoImplicit false

namespace ModuleDeps

/-- How a run went that came to its end. -/
inductive Outcome where
  /-- All inputs were analysed without errors. -/
  | clean
  /-- Something stopped an analysis. -/
  | analysisErrors
  /-- An input could not be read. -/
  | inputFailures
  deriving DecidableEq, Repr

/-- The exit status of an outcome. -/
def Outcome.exitStatus : Outcome → Nat
  | .clean => 0
  | .analysisErrors => 1
  | .inputFailures => 2

/-- The exit status after a fault. -/
def Severity.exitStatus : Severity → Nat
  | .warning => 0
  | .error => 1
  | .critical => 2

/-- Something that a run says beside its output. -/
inductive Notice where
  /-- An input could not be read. -/
  | inputFailed (input : RawText) (fault : Fault)
  /-- The report was written to a file. -/
  | written (path : RawText)
  /-- The run came to no end. -/
  | failed (fault : Fault)

/-- The text of a notice. -/
def Notice.text : Notice → String
  | .inputFailed input fault =>
    fault.severity.text ++ ": " ++ input.shown ++ ": " ++ fault.userMessage ++ "\n"
  | .written path => "Results written to: " ++ path.shown ++ "\n"
  | .failed fault => fault.severity.text ++ ": " ++ fault.userMessage ++ "\n"

/-- What a run leaves. -/
structure Execution where
  /-- How it went. -/
  outcome : Except Fault Outcome
  /-- Its output; less than was meant to be written if the run failed. -/
  output : RawText
  /-- What it said besides. -/
  notices : List Notice
  /-- The files. -/
  files : FileTree

namespace Execution

/-- The exit status. -/
def exitStatus (e : Execution) : Nat :=
  match e.outcome with
  | .ok outcome => outcome.exitStatus
  | .error fault => fault.severity.exitStatus

/-- All notices, with that on the fault that ended the run. -/
def allNotices (e : Execution) : List Notice :=
  match e.outcome with
  | .ok _ => e.notices
  | .error fault => e.notices ++ [.failed fault]

/-- A run that a fault ends, with no output. -/
def failed (files : FileTree) (notices : List Notice) (fault : Fault) : Execution :=
  ⟨.error fault, "", notices, files⟩

end Execution

/-! ### Analysing inputs -/

/-- The modules of an input. -/
def readModules (files : FileTree) (path : RawText) : Except Fault (List SourceModule) :=
  if !files.isPresent path then .error (.inputNotFound path.shown)
  else
    match files.readText path with
    | .error cause => .error (.file cause)
    | .ok text => ModuleList.parseFile path.shown text

/-- The report on an input whose analysis ends at the given time. -/
def analyzeInput (config : AnalysisConfig) (files : FileTree) (time : String) (input : RawText) :
    Except Fault Report :=
  (readModules files input).map fun modules =>
    ⟨input.shown, modules.length, time, config.analyze modules⟩

/-- The report on an input with its position among the inputs, or why there is none. -/
def analyzeAt (config : AnalysisConfig) (files : FileTree) (clock : Nat → String)
    (input : RawText × Nat) : RawText × Except Fault Report :=
  (input.1, analyzeInput config files (clock input.2) input.1)

/-- The reports on inputs, or why there is none. -/
def analyzeInputs (config : AnalysisConfig) (files : FileTree) (clock : Nat → String)
    (inputs : List RawText) : List (RawText × Except Fault Report) :=
  inputs.zipIdx.map (analyzeAt config files clock)

/-- The values of a function at the items of a list, each found by a task of its own. -/
def mapAtOnce {α β : Type} (f : α → β) (items : List α) : List β :=
  (items.map fun item => Task.spawn fun _ => f item).map Task.get

/-- The reports on the inputs that settings name; several inputs are analysed at once if the
settings allow it. -/
def analyzeAll (s : Settings) (found : Surroundings) : List (RawText × Except Fault Report) :=
  if s.parallel && 1 < s.inputs.length then
    mapAtOnce (analyzeAt s.analysis found.files found.clock) s.inputs.zipIdx
  else analyzeInputs s.analysis found.files found.clock s.inputs

/-- An input with the report that its analysis gave. -/
def reportOf? : RawText × Except Fault Report → Option (RawText × Report)
  | (input, .ok report) => some (input, report)
  | (_, .error _) => none

/-- What is said on an analysis of an input. -/
def noticeOf? : RawText × Except Fault Report → Option Notice
  | (_, .ok _) => none
  | (input, .error fault) => some (.inputFailed input fault)

/-- How a run went, from what was said on inputs and from the reports. -/
def outcomeOf (notices : List Notice) (reports : List Report) : Outcome :=
  if !notices.isEmpty then .inputFailures
  else if reports.any (·.result.hasErrors) then .analysisErrors
  else .clean

/-! ### Handing the report over -/

/-- The text of reports on inputs, in the form that settings ask for.  JSON names the inputs, and so
it takes only those whose path is a text. -/
def formatReports (s : Settings) (reports : List (RawText × Report)) : Except Fault String :=
  if s.outputFormat == .json && reports.any (·.1.text?.isNone) then
    .error (.jsonWrite "path contains invalid UTF-8 characters")
  else .ok (s.layout.format (reports.map (·.2)) s.outputFormat)

/-- Writes a report to the file with the given path. -/
def writeOutput (files : FileTree) (room : Option Room) (path : RawText) (text : String) :
    FileAttempt Fault :=
  (files.writeText room path text).mapError (.outputWrite path.shown)

/-- Hands a report over: to the file that the settings name, or as output. -/
def deliver (s : Settings) (found : Surroundings) (notices : List Notice) (outcome : Outcome)
    (text : String) : Execution :=
  match s.outputFile with
  | none =>
    let bytes := (RawText.ofText text).bytes
    match Room.outcome found.outputRoom bytes with
    | .error cause =>
      ⟨.error (.standardOutput cause), ⟨Room.taken found.outputRoom bytes⟩, notices, found.files⟩
    | .ok _ => ⟨.ok outcome, text, notices, found.files⟩
  | some path =>
    match writeOutput found.files found.fileRoom path text with
    | ⟨files, .error fault⟩ => .failed files notices fault
    | ⟨files, .ok _⟩ =>
      ⟨.ok outcome, "", notices ++ (if s.quiet then [] else [.written path]), files⟩

/-- Analyses the inputs that settings name. -/
def analyzeWith (s : Settings) (found : Surroundings) : Execution :=
  if s.inputs.isEmpty then
    .failed found.files [] (.settings ("No module list given. Pass one or more JSON files " ++
      "or set `inputs` in the config file."))
  else
    let results := analyzeAll s found
    let reports := results.filterMap reportOf?
    let notices := results.filterMap noticeOf?
    let outcome := outcomeOf notices (reports.map (·.2))
    if reports.isEmpty then ⟨.ok outcome, "", notices, found.files⟩
    else
      match formatReports s reports with
      | .error fault => .failed found.files notices fault
      | .ok text => deliver s found notices outcome text

/-! ### Running -/

/-- What is said when there is a settings file already. -/
def presentText (path : RawText) : String :=
  "Configuration file already exists at: " ++ path.shown ++ "\n" ++
    "To overwrite it, delete the file first and run this command again.\n"

/-- What is said about a new settings file. -/
def createdText (path : RawText) : String :=
  "Created default configuration file at: " ++ path.shown ++ "\n" ++
    "\nConfiguration options:\n" ++
    "  - inputs: Module list files to analyse\n" ++
    "  - output_format: Output format (text, json, csv, dot)\n" ++
    "  - exclude_patterns: Glob patterns on module names to leave out\n" ++
    "  - extra_stdlib_modules: Extra names treated as standard library\n" ++
    "  - skip_invalid_modules: Skip malformed module records instead of failing\n"

/-- Makes a settings file unless something is in its place. -/
def makeSettingsFile (files : FileTree) (room : Option Room) (path : RawText) : Execution :=
  if files.isPresent path then ⟨.ok .clean, presentText path, [], files⟩
  else
    match SettingsFile.create files room path with
    | ⟨files', .error fault⟩ => .failed files' [] fault
    | ⟨files', .ok _⟩ => ⟨.ok .clean, createdText path, [], files'⟩

/-- What a run with the given arguments leaves. -/
def execute (found : Surroundings) (a : Arguments) : Execution :=
  if a.init then makeSettingsFile found.files found.fileRoom SettingsFile.defaultPath
  else
    match loadSettings found EnvironmentSettings.defaultStem a with
    | .error fault => .failed found.files [] fault
    | .ok s => analyzeWith s found

/-- What is printed when the version is wanted. -/
def versionText : String := "modgraph 0.1.0\n"

end ModuleDeps
