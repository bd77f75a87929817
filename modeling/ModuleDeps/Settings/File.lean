/-
Settings files.

A settings file is a TOML table with one key for each setting.  A key that names no setting, and a
value of another kind than the setting has, spoil the file.

Main definitions:

* `ModuleDeps.SettingsLayer.ofToml?` — the layer that a table gives;
* `ModuleDeps.SettingsLayer.parse`, `ModuleDeps.SettingsLayer.ofFile` — the layer of a text and of
  a file;
* `ModuleDeps.SettingsFile` — a file as a source of settings;
* `ModuleDeps.SettingsFile.create` — a file with the default settings.
-/

import ModuleDeps.Settings.Check
import ModuleDeps.Text.Count
import ModuleDeps.Toml.Reader

set_option relaxedAutoImplicit false
set_option autoImplicit false

namespace ModuleDeps

namespace Toml

/-- The string that a value is. -/
def toString? : Toml → Option String
  | .string s => some s
  | _ => none

/-- The truth value that a value is. -/
def toBool? : Toml → Option Bool
  | .boolean b => some b
  | _ => none

/-- The count that a value is. -/
def toCount? : Toml → Option Nat
  | .integer (.ofNat n) => if n < Text.countLimit then some n else none
  | _ => none

/-- The strings that a value lists. -/
def toStrings? : Toml → Option (List String)
  | .array items => items.mapM toString?
  | _ => none

/-- The path that a value is. -/
def toPath? (v : Toml) : Option RawText :=
  v.toString?.map .ofText

/-- The paths that a value lists. -/
def toPaths? (v : Toml) : Option (List RawText) :=
  v.toStrings?.map (·.map .ofText)

/-- Does a value hold nothing? -/
def isVoid : Toml → Bool
  | .array [] => true
  | .table _ [] => true
  | _ => false

/-- The format that a value names: by its word, or by its word as the only key of a table, with
nothing behind it. -/
def toFormat? : Toml → Option OutputFormat
  | .string word => OutputFormat.ofWord? word
  | .table _ [(word, v)] => if v.isVoid then OutputFormat.ofWord? word else none
  | _ => none

end Toml

namespace SettingsLayer

/-- A layer with one more setting. -/
def withMember (layer : SettingsLayer) (name : String) (v : Toml) : Option SettingsLayer :=
  match name with
  | "inputs" => v.toPaths?.map fun x => { layer with inputs := some x }
  | "output_format" => v.toFormat?.map fun x => { layer with outputFormat := some x }
  | "output_file" => v.toPath?.map fun x => { layer with outputFile := some x }
  | "use_colors" => v.toBool?.map fun x => { layer with useColors := some x }
  | "quiet" => v.toBool?.map fun x => { layer with quiet := some x }
  | "verbose" => v.toBool?.map fun x => { layer with verbose := some x }
  | "parallel" => v.toBool?.map fun x => { layer with parallel := some x }
  | "show_external_limit" => v.toCount?.map fun x => { layer with externalLimit := some x }
  | "extra_stdlib_modules" => v.toStrings?.map fun x => { layer with extraStdlib := some x }
  | "exclude_patterns" => v.toStrings?.map fun x => { layer with excludePatterns := some x }
  | "skip_invalid_modules" => v.toBool?.map fun x => { layer with skipInvalid := some x }
  | _ => none

/-- The layer that a table gives. -/
def ofToml? (members : Toml.Members) : Option SettingsLayer :=
  members.foldlM (fun layer m => layer.withMember m.1 m.2) empty

/-- The layer of the settings text of the file with the given path. -/
def parse (path text : String) : Except Fault SettingsLayer :=
  match (Toml.read text).bind ofToml? with
  | none => .error (.settingsParse path "the text is not a table of settings")
  | some layer => (layer.check path).map fun _ => layer

/-- The layer of a file. -/
def ofFile (files : FileTree) (path : RawText) : Except Fault SettingsLayer :=
  if !files.isPresent path then .error (.settingsNotFound path.shown)
  else
    match files.readText path with
    | .error cause => .error (.settingsRead path.shown cause)
    | .ok text => parse path.shown text

end SettingsLayer

/-- A file as a source of settings. -/
structure SettingsFile where
  /-- Its path. -/
  path : RawText
  /-- Its name among the sources. -/
  name : String
  /-- Its rank among the sources. -/
  priority : Nat

namespace SettingsFile

/-- The path of the settings file of the working directory. -/
def defaultPath : RawText := ".modgraph.toml"

/-- The settings file of the working directory. -/
def default : SettingsFile := ⟨defaultPath, "default config file", 10⟩

/-- The settings file with the given path. -/
def ofPath (path : RawText) : SettingsFile := ⟨path, "config file (" ++ path.shown ++ ")", 10⟩

/-- Is the file there? -/
def isAvailable (source : SettingsFile) (files : FileTree) : Bool :=
  files.isFile source.path

/-- The layer of the file, which has to be there. -/
def load (source : SettingsFile) (files : FileTree) : Except Fault SettingsLayer :=
  if source.isAvailable files then SettingsLayer.ofFile files source.path
  else .error (.settingsNotFound source.path.shown)

/-- A layer with that of the file laid over it, if the file is there. -/
def loadOver (source : SettingsFile) (files : FileTree) (layer : SettingsLayer) :
    Except Fault SettingsLayer :=
  if source.isAvailable files then (source.load files).map layer.mergeWith else .ok layer

/-- The lines of a file with the default settings. -/
def templateLines : List String :=
  [ "# modgraph configuration",
    "#",
    "# Values given here are overridden by MODGRAPH_* environment variables and",
    "# by command line flags.",
    "",
    "# Module list files to analyse when none are given on the command line",
    "# inputs = [\"modules.json\"]",
    "",
    "# Output format: text, json, csv or dot",
    "output_format = \"text\"",
    "",
    "# Write the report to a file instead of stdout",
    "# output_file = \"dependencies.txt\"",
    "",
    "# Colored text output",
    "use_colors = true",
    "",
    "# Analyse several inputs in parallel",
    "parallel = true",
    "",
    "# Number of external packages listed in the text report",
    "show_external_limit = 10",
    "",
    "# Extra top-level names treated as standard library",
    "extra_stdlib_modules = []",
    "",
    "# Glob patterns on module names; matching modules are left out",
    "exclude_patterns = []",
    "",
    "# Skip modules with empty names or empty dotted segments instead of failing",
    "skip_invalid_modules = false" ]

/-- The text of a file with the default settings. -/
def template : String :=
  String.join (templateLines.map (· ++ "\n"))

/-- The directories above a path, if they are not there. -/
def prepare (files : FileTree) (path : RawText) : FileAttempt FileFault :=
  match Path.parent? path with
  | none => ⟨files, .ok ()⟩
  | some above =>
    if above.isEmpty || files.isPresent above then ⟨files, .ok ()⟩
    else files.createDirectories above

/-- A file that has the default settings, after the directories above it. -/
def create (files : FileTree) (room : Option Room) (path : RawText) : FileAttempt Fault :=
  ((prepare files path).andThen (·.writeText room path template)).mapError .file

end SettingsFile

end ModuleDeps
