/-
Settings from environment variables.

A variable is named by a common beginning, an underscore and the key of a setting.  Lists are
separated by commas, truth values have four spellings each.

Main definitions:

* `ModuleDeps.Environment` — the variables and their values;
* `ModuleDeps.EnvironmentSettings` — the variables with a common beginning as a source of settings;
* `ModuleDeps.EnvironmentSettings.load` — the layer that they give.
-/

import ModuleDeps.Settings.Basic
import ModuleDeps.Text.Count
import ModuleDeps.Text.LowerCase

set_option relaxedAutoImplicit false
set_option autoImplicit false

namespace ModuleDeps

/-- The variables and their values.  A variable with a value that is no text counts as not set, and
is not among them. -/
abbrev Environment := List (String × String)

/-- The value of a variable. -/
def Environment.get? (vars : Environment) (name : String) : Option String :=
  (vars.find? (·.1 == name)).map (·.2)

/-- The variables with a common beginning as a source of settings. -/
structure EnvironmentSettings where
  /-- How the names of the variables begin. -/
  stem : String
  /-- Their rank among the sources. -/
  priority : Nat

namespace EnvironmentSettings

/-- How the names of the variables begin if nothing else is said. -/
def defaultStem : String := "MODGRAPH"

/-- The variables with the given beginning. -/
def ofStem (stem : String) : EnvironmentSettings := ⟨stem, 20⟩

/-- The name of the source. -/
def name (source : EnvironmentSettings) : String :=
  source.stem ++ " environment variables"

/-- The name of the variable for a key. -/
def variableName (source : EnvironmentSettings) (key : String) : String :=
  source.stem ++ "_" ++ key

/-- The value of the variable for a key. -/
def get? (source : EnvironmentSettings) (vars : Environment) (key : String) : Option String :=
  vars.get? (source.variableName key)

/-- The keys. -/
def keys : List String :=
  ["INPUTS", "OUTPUT_FORMAT", "OUTPUT_FILE", "EXCLUDE", "STDLIB", "SKIP_INVALID", "PARALLEL",
    "COLORS", "EXTERNAL_LIMIT"]

/-- Is any of the variables set? -/
def isAvailable (source : EnvironmentSettings) (vars : Environment) : Bool :=
  keys.any fun key => (source.get? vars key).isSome

/-- The items of a list: what stands between commas, without blanks around it, if anything is
left. -/
def items (value : String) : List String :=
  (((Text.cutAt ',' value.toList).map Text.trim).filter (!·.isEmpty)).map String.ofList

/-- The paths in a list. -/
def paths (value : String) : List RawText :=
  (items value).map .ofText

/-- A value as it is compared with the spellings of the truth values. -/
def folded (value : String) : String :=
  Text.toLower (String.ofList (Text.trim value.toList))

/-- The truth value with a spelling. -/
def truth? (spelling : String) : Option Bool :=
  if ["1", "true", "yes", "on"].contains spelling then some true
  else if ["0", "false", "no", "off"].contains spelling then some false
  else none

/-- The truth value of a key. -/
def flag (source : EnvironmentSettings) (vars : Environment) (key : String) :
    Except Fault (Option Bool) :=
  match source.get? vars key with
  | none => .ok none
  | some value =>
    match truth? (folded value) with
    | some b => .ok (some b)
    | none => .error (.settings
        (source.variableName key ++ " must be a boolean, got '" ++ folded value ++ "'"))

/-- The format of the report. -/
def format (source : EnvironmentSettings) (vars : Environment) :
    Except Fault (Option OutputFormat) :=
  match source.get? vars "OUTPUT_FORMAT" with
  | none => .ok none
  | some word => (OutputFormat.parse word).map some

/-- How many external packages the report lists. -/
def limit (source : EnvironmentSettings) (vars : Environment) : Except Fault (Option Nat) :=
  match source.get? vars "EXTERNAL_LIMIT" with
  | none => .ok none
  | some value =>
    match Text.count? (Text.trim value.toList) with
    | some n => .ok (some n)
    | none => .error (.settings
        (source.variableName "EXTERNAL_LIMIT" ++ " must be a number, got '" ++ value ++ "'"))

/-- The layer that the variables give. -/
def load (source : EnvironmentSettings) (vars : Environment) : Except Fault SettingsLayer := do
  let skipInvalid ← source.flag vars "SKIP_INVALID"
  let parallel ← source.flag vars "PARALLEL"
  let useColors ← source.flag vars "COLORS"
  let outputFormat ← source.format vars
  let externalLimit ← source.limit vars
  return { SettingsLayer.empty with
    inputs := (source.get? vars "INPUTS").map paths
    outputFormat
    outputFile := (source.get? vars "OUTPUT_FILE").map .ofText
    useColors
    parallel
    externalLimit
    extraStdlib := (source.get? vars "STDLIB").map items
    excludePatterns := (source.get? vars "EXCLUDE").map items
    skipInvalid }

/-- A layer with that of the variables laid over it, if any of them is set. -/
def loadOver (source : EnvironmentSettings) (vars : Environment) (layer : SettingsLayer) :
    Except Fault SettingsLayer :=
  if source.isAvailable vars then (source.load vars).map layer.mergeWith else .ok layer

end EnvironmentSettings

end ModuleDeps
