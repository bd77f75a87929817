/-
Building the graph of a project, module by module.

Each statement of a module is read, relative names are made absolute, every name is classified, and
an internal name is looked up among the spellings of the project's modules.  The edge map of the
name's kind then gets an edge to what the name stands for.

Main definitions:

* `ModuleDeps.Project` — the internal modules and what decides about names;
* `ModuleDeps.Project.process` — the records of one statement;
* `ModuleDeps.Builder` — a project with the graph and the records so far;
* `ModuleDeps.Builder.addModule` — one more module.
-/

import ModuleDeps.Classification
import ModuleDeps.Dotted.Relative
import ModuleDeps.Dotted.Spellings
import ModuleDeps.Graph.Basic
import ModuleDeps.Import.Statement
import ModuleDeps.SourceModule

set_option relaxedAutoImplicit false
set_option autoImplicit false

namespace ModuleDeps

/-- What is known about the names of a project. -/
structure Project where
  /-- Decides where names live. -/
  classifier : Classifier
  /-- The names of the internal modules. -/
  internal : List String
  /-- The spellings of the internal modules. -/
  spellings : Dotted.Spellings

namespace Project

/-- The project with the given modules; modules with a flawed name do not take part. -/
def ofModules (classifier : Classifier) (modules : List SourceModule) : Project :=
  let names := (modules.filter SourceModule.isValid).map SourceModule.name
  ⟨classifier, names, .ofNames names⟩

/-- The name of a record, made absolute if it is relative. -/
def absoluteName (record : ImportRecord) : String :=
  if record.isRelative then Dotted.resolve record.name record.source else record.name

/-- A record with its absolute name, its kind and, if it is internal, the module that it stands
for. -/
def settle (project : Project) (record : ImportRecord) : ImportRecord :=
  let name := absoluteName record
  let kind := project.classifier.classify project.internal name
  { record with
    name := name
    kind := kind
    resolved := if kind = .internal then project.spellings.canonical? name else record.resolved }

/-- The records of one statement of the module `source`. -/
def process (project : Project) (statement source : String) : List ImportRecord :=
  (Import.parse statement source).map project.settle

end Project

/-- A project with the graph and the records of the modules added so far. -/
structure Builder where
  /-- What is known about names. -/
  project : Project
  /-- The graph so far. -/
  graph : Graph
  /-- The records so far, the last one first. -/
  reversed : List ImportRecord

namespace Builder

/-- The builder of a project before its first module. -/
def start (project : Project) : Builder := ⟨project, .empty, []⟩

/-- The records so far, in order. -/
def records (b : Builder) : List ImportRecord :=
  b.reversed.reverse

/-- The builder with one more record. -/
def addRecord (b : Builder) (record : ImportRecord) : Builder :=
  { b with
    graph := (b.graph.addEdge record.kind record.source record.target).1
    reversed := record :: b.reversed }

/-- The records of a module, in the order of its statements. -/
def recordsOf (b : Builder) (m : SourceModule) : List ImportRecord :=
  m.imports.flatMap fun statement => b.project.process statement m.name

/-- The builder with one more module, and the number of its records. -/
def addModule (b : Builder) (m : SourceModule) : Builder × Nat :=
  let records := b.recordsOf m
  (records.foldl addRecord b, records.length)

end Builder

end ModuleDeps
