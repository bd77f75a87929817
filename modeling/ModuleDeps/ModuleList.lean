/-
Module lists in JSON.

A module list is an array of modules, or an object whose member `modules` is one; other members of
the object are ignored.  A module is an object with a `name` and, if they are not empty, a `path`
and `imports`, or an array of these three in this order, of which the last ones may be missing.

Main definitions:

* `ModuleDeps.SourceModule.ofJson?`, `ModuleDeps.SourceModule.toJson` — a module from a value, and
  back;
* `ModuleDeps.ModuleList.ofJson?`, `ModuleDeps.ModuleList.toJson` — the same for a list;
* `ModuleDeps.ModuleList.parse` — the modules in a text.
-/

import ModuleDeps.Json.Reader
import ModuleDeps.SourceModule

set_option relaxedAutoImplicit false
set_option autoImplicit false

namespace ModuleDeps

namespace SourceModule

/-- A value for a member that may be missing. -/
def optionalMember? {α : Type} (members : List (String × Json)) (name : String)
    (decode : Json → Option α) (default : α) : Option α :=
  (Json.member? members name).bind fun
    | none => some default
    | some v => decode v

/-- The module that a value describes. -/
def ofJson? : Json → Option SourceModule
  | .object members => do
    let name ← (← Json.member? members "name").bind Json.toString?
    let path ← optionalMember? members "path" Json.toString? ""
    let imports ← optionalMember? members "imports" Json.toStrings? []
    return ⟨name, path, imports⟩
  | .array [name] => do return ⟨← name.toString?, "", []⟩
  | .array [name, path] => do return ⟨← name.toString?, ← path.toString?, []⟩
  | .array [name, path, imports] => do
    return ⟨← name.toString?, ← path.toString?, ← imports.toStrings?⟩
  | _ => none

/-- The value that describes a module. -/
def toJson (m : SourceModule) : Json :=
  .object [("name", .string m.name), ("path", .string m.path),
    ("imports", .array (m.imports.map .string))]

end SourceModule

namespace ModuleList

/-- The modules of an array. -/
def ofItems? (v : Json) : Option (List SourceModule) :=
  v.toItems?.bind fun items => items.mapM SourceModule.ofJson?

/-- The modules that a value lists. -/
def ofJson? : Json → Option (List SourceModule)
  | .object members => (Json.member? members "modules").bind fun v => v.bind ofItems?
  | v => ofItems? v

/-- The value that lists the modules. -/
def toJson (modules : List SourceModule) : Json :=
  .array (modules.map SourceModule.toJson)

/-- The modules that a text lists.  A value of the wrong shape is told before what stands behind
it. -/
def parse (text : String) : Except JsonFlaw (List SourceModule) :=
  match Json.readFirst text with
  | .error flaw => .error flaw
  | .ok (v, more) =>
    match ofJson? v with
    | none => .error .mismatched
    | some modules => if more then .error .malformed else .ok modules

/-- What is said about a text that is no module list. -/
def flawText : JsonFlaw → String
  | .malformed => "the text is not JSON"
  | .truncated => "the text ends too early"
  | .mismatched => "the value is not a module list"

/-- The modules that the text of a file lists, or the fault. -/
def parseFile (path text : String) : Except Fault (List SourceModule) :=
  (parse text).mapError fun flaw => .moduleList path flaw (flawText flaw)

end ModuleList

end ModuleDeps
