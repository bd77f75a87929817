/-
Analysing the dependencies between the modules of a list.

Modules whose names match an exclude pattern are left out, and modules with a flawed name too if
that is asked for.  The others are added to a graph one by one; a flawed name stops the work there
and is told as an error, next to what has been built so far.  An analysis always has a result.

Main definitions:

* `ModuleDeps.AnalysisConfig` — what an analysis is told;
* `ModuleDeps.AnalysisResult` — what it finds;
* `ModuleDeps.AnalysisConfig.analyze` — the analysis.
-/

import ModuleDeps.Graph.Builder
import ModuleDeps.Statistics

set_option relaxedAutoImplicit false
set_option autoImplicit false

namespace ModuleDeps

/-- What an analysis is told. -/
structure AnalysisConfig where
  /-- Names that count as standard library beside the built-in ones. -/
  extraStdlib : List String
  /-- Modules with a name that matches one of these patterns are left out. -/
  excludePatterns : List String
  /-- Are modules with a flawed name left out? -/
  skipInvalid : Bool
  deriving DecidableEq, Repr

/-- The configuration without any wish. -/
def AnalysisConfig.default : AnalysisConfig := ⟨[], [], false⟩

/-- What an analysis finds. -/
structure AnalysisResult where
  /-- The graph. -/
  graph : Graph
  /-- The records, in the order of the modules and statements. -/
  records : List ImportRecord
  /-- The figures. -/
  statistics : Statistics
  /-- What stopped the analysis, if something did. -/
  errors : List String
  /-- What is worth knowing. -/
  warnings : List String

namespace AnalysisResult

/-- Did something stop the analysis? -/
def hasErrors (r : AnalysisResult) : Bool :=
  !r.errors.isEmpty

/-- The records of a kind. -/
def recordsOfKind (r : AnalysisResult) (kind : DependencyKind) : List ImportRecord :=
  r.records.filter (·.kind == kind)

/-- The records of a module. -/
def recordsOfSource (r : AnalysisResult) (source : String) : List ImportRecord :=
  r.records.filter (·.source == source)

/-- A result with the figures of its graph and records. -/
def assemble (graph : Graph) (records : List ImportRecord) (errors warnings : List String) :
    AnalysisResult where
  graph := graph
  records := records
  statistics := .ofGraph records graph
  errors := errors
  warnings := warnings

end AnalysisResult

namespace AnalysisConfig

/-- The patterns that the configuration gives, or the first flaw. -/
def patterns (config : AnalysisConfig) : Except Glob.Flaw (List Glob) :=
  config.excludePatterns.mapM Glob.parse

/-- The modules that no pattern leaves out. -/
def notExcluded (patterns : List Glob) (modules : List SourceModule) : List SourceModule :=
  modules.filter fun m => !patterns.any (·.accepts m.name)

/-- The modules that are analysed: flawed ones are left out if that is asked for. -/
def selected (config : AnalysisConfig) (modules : List SourceModule) : List SourceModule :=
  if config.skipInvalid then modules.filter SourceModule.isValid else modules

/-- What is said about the modules that are left out for their names. -/
def skipWarnings (config : AnalysisConfig) (modules : List SourceModule) : List String :=
  if config.skipInvalid then
    modules.filterMap fun m =>
      m.flaw?.map fun flaw => "Skipped module: " ++ (m.fault flaw).message
  else []

/-- Adds modules up to the first flawed one, whose fault is the second component. -/
def addModules (b : Builder) : List SourceModule → Builder × Option Fault
  | [] => (b, none)
  | m :: ms =>
    match m.flaw? with
    | some flaw => (b, some (m.fault flaw))
    | none => addModules (b.addModule m).1 ms

/-- What is said when a fault stops the analysis. -/
def failure (fault : Fault) : String :=
  "Dependency analysis failed: " ++ fault.message

/-- What is said about a cycle. -/
def cycleWarning (cycle : List String) : String :=
  "Circular dependency detected: " ++ " -> ".intercalate cycle

/-- The analysis of the modules that are left, with the warnings so far. -/
def analyzeSelected (config : AnalysisConfig) (modules : List SourceModule)
    (warnings : List String) : AnalysisResult :=
  let project := Project.ofModules ⟨config.extraStdlib⟩ modules
  match addModules (.start project) modules with
  | (b, some fault) => .assemble b.graph b.records [failure fault] warnings
  | (b, none) =>
    let graph := b.graph.compute
    .assemble graph b.records [] (warnings ++ graph.cycles.map cycleWarning)

/-- The analysis of a list of modules. -/
def analyze (config : AnalysisConfig) (modules : List SourceModule) : AnalysisResult :=
  match config.patterns with
  | .error flaw => .assemble .empty [] [failure (.pattern flaw)] []
  | .ok patterns =>
    let left := notExcluded patterns modules
    config.analyzeSelected (config.selected left) (config.skipWarnings left)

end AnalysisConfig

end ModuleDeps
