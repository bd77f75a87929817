/-
Relative names.

A name with dots in front is relative to the module that uses it: one dot means the package of that
module, and each further dot the package around it.  Dots that lead out of the outermost package
leave nothing to start from, which is not an error.

Main definitions:

* `ModuleDeps.Dotted.resolve?` — the absolute name that a relative one stands for, or why there is
  none;
* `ModuleDeps.Dotted.resolve` — the same, with the name itself where there is none.
-/

import ModuleDeps.Dotted
import ModuleDeps.Fault

set_option relaxedAutoImplicit false
set_option autoImplicit false

namespace ModuleDeps.Dotted

/-- Why a relative name has no absolute one. -/
inductive RelativeFlaw where
  /-- The module that uses the name has an empty segment in its own name. -/
  | source
  /-- The name has an empty segment behind its leading dots. -/
  | path
  deriving DecidableEq, Repr

/-- What is said about a relative name without an absolute one. -/
def RelativeFlaw.text : RelativeFlaw → String
  | .source => "declaring module name has an empty segment"
  | .path => "import path has an empty segment"

/-- The number of dots in front of a name. -/
def leadingDots (name : String) : Nat :=
  (name.toList.takeWhile (· == '.')).length

/-- A name without the dots in front of it. -/
def afterDots (name : String) : String :=
  String.ofList (name.toList.dropWhile (· == '.'))

/-- The package that `dots` dots mean in the module with the given segments. -/
def package (source : List String) (dots : Nat) : List String :=
  source.dropLast.take (source.dropLast.length - (dots - 1))

/-- The absolute name that `name` stands for in the module `source`, or why there is none. -/
def tryResolve (name source : String) : Except RelativeFlaw String :=
  let dots := leadingDots name
  let rest := afterDots name
  if dots = 0 then .ok name
  else if hasEmptySegment source then .error .source
  else if !rest.isEmpty && hasEmptySegment rest then .error .path
  else .ok (ofSegments (package (segments source) dots ++ if rest.isEmpty then [] else [rest]))

/-- The absolute name that `name` stands for in the module `source`, or the fault. -/
def resolve? (name source : String) : Except Fault String :=
  (tryResolve name source).mapError fun flaw => .relativeImport name source flaw.text

/-- The absolute name that `name` stands for in the module `source`; the name itself if there is
none. -/
def resolve (name source : String) : String :=
  match tryResolve name source with
  | .ok resolved => resolved
  | .error _ => name

end ModuleDeps.Dotted
