/-
Where an imported name lives.

A name is held against a list of rules, and the first rule that matches decides; a name that no
rule matches is external.  The rules for the project's own modules are generous: a name counts as
internal as soon as its segments are the beginning or the end of the segments of an internal module,
or the other way round.

Main definitions:

* `ModuleDeps.Rule` — the rules, in the order `Rule.order`;
* `ModuleDeps.Classifier` — the names that count as standard library beside the built-in ones;
* `ModuleDeps.Classifier.matchesRule` — does a rule match a name?
* `ModuleDeps.Classifier.rule?`, `ModuleDeps.Classifier.classify` — the first rule that matches, and
  the kind of dependency that it gives.
-/

import ModuleDeps.Dotted
import ModuleDeps.Import.Record
import ModuleDeps.StandardLibrary

set_option relaxedAutoImplicit false
set_option autoImplicit false

namespace ModuleDeps

/-- A rule by which a name is classified. -/
inductive Rule where
  /-- The first segment is a name of the standard library. -/
  | stdlibTopLevel
  /-- The name is an internal module. -/
  | exactInternal
  /-- The name is a package that holds an internal module. -/
  | packageOfInternal
  /-- The name lies inside an internal module. -/
  | submoduleOfInternal
  /-- The name ends in an internal module, or an internal module ends in the name. -/
  | segmentSuffix
  deriving DecidableEq, Repr

namespace Rule

/-- The rules in the order in which they are tried. -/
def order : List Rule :=
  [.stdlibTopLevel, .exactInternal, .packageOfInternal, .submoduleOfInternal, .segmentSuffix]

/-- The kind of dependency that a matching rule gives. -/
def kind : Rule → DependencyKind
  | .stdlibTopLevel => .stdlib
  | _ => .internal

/-- The name of a rule. -/
def text : Rule → String
  | .stdlibTopLevel => "stdlib top-level"
  | .exactInternal => "exact internal"
  | .packageOfInternal => "package of internal"
  | .submoduleOfInternal => "submodule of internal"
  | .segmentSuffix => "segment suffix"

end Rule

/-- Does `child` start with `parent` and a dot? -/
def isInside (child parent : String) : Bool :=
  (parent.toList ++ ['.']).isPrefixOf child.toList

/-- Decides where names live. -/
structure Classifier where
  /-- Names that count as standard library beside the built-in ones. -/
  extraStdlib : List String
  deriving DecidableEq, Repr

namespace Classifier

/-- Does the top-level name belong to the standard library? -/
def isStdlib (classifier : Classifier) (topLevel : String) : Bool :=
  StandardLibrary.holds topLevel || classifier.extraStdlib.contains topLevel

/-- Does the rule match the name, in a project with the given modules? -/
def matchesRule (classifier : Classifier) (internal : List String) (name : String) : Rule → Bool
  | .stdlibTopLevel => classifier.isStdlib ((Dotted.segments name).headD name)
  | .exactInternal => internal.contains name
  | .packageOfInternal => internal.any fun m => isInside m name
  | .submoduleOfInternal => internal.any fun m => isInside name m
  | .segmentSuffix =>
    let parts := Dotted.segments name
    internal.any fun m =>
      let moduleParts := Dotted.segments m
      parts.isSuffixOf moduleParts || moduleParts.isSuffixOf parts

/-- The first rule that matches the name. -/
def rule? (classifier : Classifier) (internal : List String) (name : String) : Option Rule :=
  Rule.order.find? (classifier.matchesRule internal name)

/-- Where the name lives, in a project with the given modules. -/
def classify (classifier : Classifier) (internal : List String) (name : String) : DependencyKind :=
  ((classifier.rule? internal name).map Rule.kind).getD .external

end Classifier

end ModuleDeps
