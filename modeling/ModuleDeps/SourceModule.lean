/-
The modules whose imports are analysed.

A module has a dotted name, the path of its file and its import statements as they are written.
Its name must not be blank and must have no empty segment.

Main definitions:

* `ModuleDeps.SourceModule` — a module;
* `ModuleDeps.SourceModule.flaw?` — what is wrong with its name;
* `ModuleDeps.SourceModule.check` — the same as a fault.
-/

import ModuleDeps.Dotted
import ModuleDeps.Fault

set_option relaxedAutoImplicit false
set_option autoImplicit false

namespace ModuleDeps

/-- A module and the import statements that it declares. -/
structure SourceModule where
  /-- The dotted name of the module. -/
  name : String
  /-- The path of the module's file; it is only carried along. -/
  path : String
  /-- The import statements, in the order of the file. -/
  imports : List String
  deriving DecidableEq, Repr

/-- What can be wrong with the name of a module. -/
inductive NameFlaw where
  /-- The name has no character that is not blank. -/
  | blank
  /-- Some segment of the name is empty. -/
  | emptySegment
  deriving DecidableEq, Repr

/-- What is said about a flaw of a name. -/
def NameFlaw.text : NameFlaw → String
  | .blank => "module name is empty"
  | .emptySegment => "module name contains an empty dotted segment"

namespace SourceModule

/-- The segments of the module's name. -/
def segments (m : SourceModule) : List String :=
  Dotted.segments m.name

/-- The last segment of the module's name. -/
def leaf (m : SourceModule) : String :=
  Dotted.leaf m.name

/-- The flaw of the module's name, if it has one. -/
def flaw? (m : SourceModule) : Option NameFlaw :=
  if (Text.trim m.name.toList).isEmpty then some .blank
  else if Dotted.hasEmptySegment m.name then some .emptySegment
  else none

/-- Is the module's name acceptable? -/
def isValid (m : SourceModule) : Bool :=
  m.flaw?.isNone

/-- The fault of a module whose name has the given flaw. -/
def fault (m : SourceModule) (flaw : NameFlaw) : Fault :=
  .invalidModule m.name flaw.text

/-- Accepts a module whose name is acceptable. -/
def check (m : SourceModule) : Except Fault Unit :=
  match m.flaw? with
  | some flaw => .error (m.fault flaw)
  | none => .ok ()

end SourceModule

end ModuleDeps
