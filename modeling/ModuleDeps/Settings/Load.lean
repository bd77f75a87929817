/-
The settings of a run.

They are laid over each other from the bottom: the defaults, a settings file, the environment
variables, the command line.  The file is the one that the command line names, which has to be
there, or else the first of the default places where there is one.

Main definitions:

* `ModuleDeps.UserDirectories.settingsPaths` — where a settings file is looked for;
* `ModuleDeps.findDefaultSettings` — the layer of the first one;
* `ModuleDeps.loadLayer`, `ModuleDeps.loadSettings` — the settings of a run, before and after they
  are checked.
-/

import ModuleDeps.Arguments
import ModuleDeps.Settings.File
import ModuleDeps.Surroundings

set_option relaxedAutoImplicit false
set_option autoImplicit false

namespace ModuleDeps

/-- Where a settings file is looked for. -/
def UserDirectories.settingsPaths (directories : UserDirectories) : List RawText :=
  SettingsFile.defaultPath ::
    (directories.home.map (Path.join · SettingsFile.defaultPath)).toList ++
    (directories.settings.map fun directory =>
      Path.join (Path.join directory "modgraph") "config.toml").toList

/-- The layer of the first settings file at a default place. -/
def findDefaultSettings (found : Surroundings) : Except Fault (Option SettingsLayer) :=
  match found.directories.settingsPaths.find? found.files.isFile with
  | none => .ok none
  | some path => (SettingsLayer.ofFile found.files path).map some

/-- The layer of the settings file. -/
def fileLayer (found : Surroundings) (config : Option RawText) : Except Fault SettingsLayer :=
  match config with
  | some path => (SettingsFile.ofPath path).load found.files
  | none => (findDefaultSettings found).map (·.getD .empty)

/-- The layers of a run laid over each other. -/
def loadLayer (found : Surroundings) (stem : String) (a : Arguments) :
    Except Fault SettingsLayer := do
  let lower ← fileLayer found a.config
  let middle ← (EnvironmentSettings.ofStem stem).loadOver found.vars lower
  return middle.mergeWith a.layer

/-- Settings that passed their check. -/
def SettingsLayer.build (layer : SettingsLayer) (files : FileTree) : Except Fault Settings :=
  (layer.toSettings.check files).map fun _ => layer.toSettings

/-- The settings of a run. -/
def loadSettings (found : Surroundings) (stem : String) (a : Arguments) : Except Fault Settings :=
  (loadLayer found stem a).bind (·.build found.files)

end ModuleDeps
