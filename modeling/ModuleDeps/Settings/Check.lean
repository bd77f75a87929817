/-
Which settings make sense.

A layer from a file is checked on its own, so that what is said about it names the file.  The
settings as a whole are checked against the files that there are.  In both, what comes first in the
order below is told.

Main definitions:

* `ModuleDeps.SettingsLayer.check` — inputs, patterns, names and output file of a layer;
* `ModuleDeps.Settings.check` — inputs, patterns, names and output directory of settings.
-/

import ModuleDeps.Files.Tree
import ModuleDeps.Settings.Basic

set_option relaxedAutoImplicit false
set_option autoImplicit false

namespace ModuleDeps

/-- Is a name one that a top-level module can have? -/
def isTopLevelName (name : String) : Bool :=
  !name.isEmpty && !name.toList.contains '.'

/-- A fault of the settings unless something holds. -/
def demand (holds : Bool) (text : String) : Except Fault Unit :=
  if holds then .ok () else .error (.settings text)

/-- A fault of the settings if a pattern is flawed, worded by means of what is wrong with it. -/
def demandPattern (pattern : String) (text : String → String) : Except Fault Unit :=
  match Glob.parse pattern with
  | .ok _ => .ok ()
  | .error flaw => .error (.settings (text flaw.message))

namespace SettingsLayer

/-- Checks an exclude pattern of the settings file with the given path. -/
def checkPattern (path pattern : String) : Except Fault Unit := do
  demand (!pattern.isEmpty) ("Empty exclude pattern in config file: " ++ path)
  demandPattern pattern fun flaw =>
    "Invalid exclude pattern '" ++ pattern ++ "' in config file: " ++ path ++ ": " ++ flaw

/-- Checks the layer of the settings file with the given path. -/
def check (layer : SettingsLayer) (path : String) : Except Fault Unit := do
  demand ((layer.inputs.getD []).all (!·.isEmpty))
    ("Empty entry in inputs in config file: " ++ path)
  (layer.excludePatterns.getD []).forM (checkPattern path)
  (layer.extraStdlib.getD []).forM fun name =>
    demand (isTopLevelName name) ("Invalid stdlib module '" ++ name ++ "' in config file: " ++
      path ++ ". Use top-level names only.")
  demand (!layer.outputFile.any (·.isEmpty)) ("Invalid empty output_file in config file: " ++ path)

end SettingsLayer

namespace Settings

/-- Checks that the directory of the output file is there. -/
def checkOutput (files : FileTree) (path : RawText) : Except Fault Unit :=
  match Path.parent? path with
  | none => .ok ()
  | some above =>
    demand (above.isEmpty || files.isDirectory above)
      ("Output directory does not exist: " ++ above.shown)

/-- Checks settings against the files that there are. -/
def check (s : Settings) (files : FileTree) : Except Fault Unit := do
  s.inputs.forM fun input =>
    if files.isFile input then .ok () else .error (.inputNotFound input.shown)
  s.analysis.excludePatterns.forM fun pattern =>
    demandPattern pattern fun flaw => "Invalid exclude pattern '" ++ pattern ++ "': " ++ flaw
  s.analysis.extraStdlib.forM fun name =>
    demand (isTopLevelName name)
      ("Invalid stdlib module '" ++ name ++ "': use top-level names only")
  match s.outputFile with
  | none => .ok ()
  | some path => checkOutput files path

end Settings

end ModuleDeps
