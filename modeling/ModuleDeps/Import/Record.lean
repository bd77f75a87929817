/-
Dependency records: one module needs another.

Main definitions:

* `ModuleDeps.DependencyKind` — where the needed module lives;
* `ModuleDeps.ImportForm` — how the statement was written;
* `ModuleDeps.ImportRecord` — a dependency of one module on another.
-/

set_option relaxedAutoImplicit false
set_option autoImplicit false

namespace ModuleDeps

/-- Where a needed module lives. -/
inductive DependencyKind where
  /-- In the project itself. -/
  | internal
  /-- In a package from elsewhere. -/
  | external
  /-- In the standard library. -/
  | stdlib
  /-- Not decided yet. -/
  | unknown
  deriving DecidableEq, Repr

/-- The word for a kind of dependency. -/
def DependencyKind.text : DependencyKind → String
  | .internal => "internal"
  | .external => "external"
  | .stdlib => "stdlib"
  | .unknown => "unknown"

/-- How an import was written. -/
inductive ImportForm where
  /-- `import X` with an absolute name. -/
  | module
  /-- `from X import a` with an absolute name. -/
  | fromImport
  /-- Either of them with a name that starts with a dot. -/
  | relative
  deriving DecidableEq, Repr

/-- The word for a form of import. -/
def ImportForm.text : ImportForm → String
  | .module => "module"
  | .fromImport => "from_import"
  | .relative => "relative"

/-- A dependency of one module on another. -/
structure ImportRecord where
  /-- The name that is imported. -/
  name : String
  /-- Where the needed module lives. -/
  kind : DependencyKind
  /-- How the import was written. -/
  form : ImportForm
  /-- The module that declares the import. -/
  source : String
  /-- The statement, without the blanks around it. -/
  statement : String
  /-- The full name of the project's module that the name stands for, if it stands for one. -/
  resolved : Option String
  /-- What is imported from the module. -/
  items : List String
  deriving DecidableEq, Repr

namespace ImportRecord

/-- Is the name of the record given relative to its module? -/
def isRelative (record : ImportRecord) : Bool :=
  record.form == .relative

/-- The module at which the dependency points. -/
def target (record : ImportRecord) : String :=
  record.resolved.getD record.name

end ImportRecord

end ModuleDeps
