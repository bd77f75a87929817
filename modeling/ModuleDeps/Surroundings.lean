/-
What a run finds.

A run finds files, environment variables, the user's directories and the time.  It also finds out,
only when it writes, whether all that it writes is taken.  All this is given to it as a whole, so
that what it does is a function of what it finds.

Main definitions:

* `ModuleDeps.UserDirectories` — the directories that belong to the user;
* `ModuleDeps.UserDirectories.ofVariables` — where they usually are;
* `ModuleDeps.Surroundings` — what a run finds.
-/

import ModuleDeps.Files.Tree
import ModuleDeps.Settings.Environment

set_option relaxedAutoImplicit false
set_option autoImplicit false

namespace ModuleDeps

/-- The directories that belong to the user. -/
structure UserDirectories where
  /-- The user's own directory. -/
  home : Option RawText
  /-- The directory for the user's settings. -/
  settings : Option RawText
  deriving DecidableEq, Repr

/-- Where the user's directories usually are: variables name them, and where they do not, the
account of the user has a directory. -/
def UserDirectories.ofVariables (vars : Environment) (account : Option RawText) :
    UserDirectories :=
  let path? (name : String) : Option RawText := (vars.get? name).map .ofText
  let home := ((path? "HOME").filter (!·.isEmpty)).or (account.filter (!·.isEmpty))
  ⟨home, ((path? "XDG_CONFIG_HOME").filter Path.isAbsolute).or (home.map (Path.join · ".config"))⟩

/-- What a run finds. -/
structure Surroundings where
  /-- The files. -/
  files : FileTree
  /-- The environment variables. -/
  vars : Environment
  /-- The user's directories. -/
  directories : UserDirectories
  /-- The time at which the analysis of each input ends, as it is written in a report.  The inputs
  are counted from zero. -/
  clock : Nat → String
  /-- The limit to what is written to a file, if there is one. -/
  fileRoom : Option Room
  /-- The limit to what is written to the standard output, if there is one. -/
  outputRoom : Option Room

end ModuleDeps
