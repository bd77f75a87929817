/-
The command line.

A run is a function of what it finds.  This module finds that out, for the paths that matter: first
those of the settings files, then those that the settings name.  Then it carries out what the run
leaves behind.  What the system refuses only then is one of the things that the run finds.

Main definitions:

* `ModuleDeps.CommandLine.surroundings` — what a run finds;
* `ModuleDeps.CommandLine.carryOut` — carrying out a run;
* `main` — the program.
-/

import Std.Time
import ModuleDeps.Command
import ModuleDeps.Report.Instant

set_option relaxedAutoImplicit false
set_option autoImplicit false

namespace ModuleDeps.CommandLine

/-! ### Finding -/

/-- Why the system refused something. -/
def faultOf : IO.Error → FileFault
  | .noFileOrDirectory .. => .notFound
  | .permissionDenied .. => .permissionDenied
  | cause => .other (toString cause)

/-- The path of a place. -/
def pathOf (place : Place) : String :=
  "/" ++ (Path.ofPieces place).shown

/-- The file at a place: it may be one that cannot be read, or a device. -/
def bodyAt (place : Place) (type : IO.FS.FileType) : IO FileBody := do
  if type != .file then return ⟨[], false, .free⟩
  match ← (IO.FS.readBinFile (pathOf place)).toBaseIO with
  | .ok bytes => return .ofBytes bytes.data.toList
  | .error cause => return ⟨[], true, { Bars.free with reading := some (faultOf cause) }⟩

/-- The tree with what stands at a place that is neither the root nor a link. -/
def probePlace (t : FileTree) (place : Place) : IO FileTree := do
  let real ← IO.FS.realPath (pathOf place)
  match (← real.metadata).type with
  | .dir => return t.put place (.directory .free)
  | type =>
    let number := t.unused
    return (t.put place (.file number)).setBody number (← bodyAt place type)

/-- The tree with what stands at the places of the names that lead on from a place.  A link is put
down as one to the place where it leads in the end. -/
def probeNames (t : FileTree) (place : Place) : List RawText → IO FileTree
  | [] => return t
  | name :: rest => do
    let next := FileTree.child place name
    match ← (IO.FS.realPath (pathOf next)).toBaseIO with
    | .error _ => return t
    | .ok path =>
      let real := Path.names path.toString
      let above := (List.range (real.length - 1)).map fun n => real.take (n + 1)
      let tree := if real == next then t
        else (above.foldl (fun tree p => tree.put p (.directory .free)) t).put next
          (.link path.toString)
      probeNames (← if real.isEmpty then pure tree else probePlace tree real) real rest

/-- The tree with what stands at a path and on its way. -/
def probe (t : FileTree) (path : RawText) : IO FileTree :=
  probeNames t (FileTree.start t.workingDirectory path) (Path.names path)

/-- The tree with what stands at paths. -/
def probeAll (t : FileTree) (paths : List RawText) : IO FileTree :=
  paths.foldlM probe t

/-- The variables that matter. -/
def variableNames : List String :=
  ["HOME", "XDG_CONFIG_HOME"] ++ EnvironmentSettings.keys.map
    (EnvironmentSettings.ofStem EnvironmentSettings.defaultStem).variableName

/-- The environment. -/
def environment : IO Environment :=
  variableNames.filterMapM fun name => do return (← IO.getEnv name).map fun value => (name, value)

/-- The number of the user, in what the system says about a process. -/
def userNumber? (status : String) : Option String :=
  (status.splitOn "\n").findSome? fun line =>
    match line.splitOn "\t" with
    | "Uid:" :: number :: _ => some number
    | _ => none

/-- The directory of the user with the given number, in the table of accounts. -/
def accountDirectory? (accounts number : String) : Option RawText :=
  (accounts.splitOn "\n").findSome? fun line =>
    match line.splitOn ":" with
    | [_, _, found, _, _, directory, _] =>
      if found == number then some (.ofText directory) else none
    | _ => none

/-- The user's directories. -/
def userDirectories (vars : Environment) : IO UserDirectories := do
  let account ← try
      let number? := userNumber? (← IO.FS.readFile "/proc/self/status")
      let accounts ← IO.FS.readFile "/etc/passwd"
      pure (number?.bind (accountDirectory? accounts))
    catch _ => pure none
  return .ofVariables vars account

/-- The time. -/
def now : IO String := do
  let stamp ← Std.Time.Timestamp.now
  return Instant.text stamp.toNanosecondsSinceUnixEpoch.val.toNat

/-- What a run with the given arguments finds, as long as nothing is refused. -/
def surroundings (a : Arguments) : IO Surroundings := do
  let vars ← environment
  let directories ← userDirectories vars
  let working := Path.names (← IO.currentDir).toString
  let start ← probeNames ⟨working, .free, [], []⟩ [] working
  let files ← probeAll start (directories.settingsPaths ++ a.config.toList)
  let found : Surroundings := ⟨files, vars, directories, fun _ => "", none, none⟩
  match loadLayer found EnvironmentSettings.defaultStem a with
  | .error _ => return found
  | .ok layer =>
    let inputs := layer.inputs.getD []
    let files ← probeAll files (inputs ++ layer.outputFile.toList)
    let times ← inputs.mapM fun _ => now
    return { found with files, clock := fun n => times.getD n "" }

/-! ### Carrying out -/

/-- What the system refused. -/
inductive Refusal where
  /-- The file at a place could not be opened. -/
  | opening (place : Place) (cause : FileFault)
  /-- A file did not take all bytes. -/
  | writing (room : Room)
  /-- The standard output did not take all bytes. -/
  | printing (cause : FileFault)

/-- The tree in which the file at a place cannot be opened to write it. -/
def barred (t : FileTree) (place : Place) (cause : FileFault) : FileTree :=
  match t.lookup? place with
  | some (.file number) =>
    let body := t.body number
    t.setBody number { body with bars := { body.bars with writing := some cause } }
  | _ =>
    let above := place.dropLast
    let bars := { t.barsAt above with writing := some cause }
    if above.isEmpty then { t with root := bars } else t.put above (.directory bars)

/-- What a run finds, after something was refused. -/
def refused (found : Surroundings) : Refusal → Surroundings
  | .opening place cause => { found with files := barred found.files place cause }
  | .writing room => { found with fileRoom := some room }
  | .printing cause => { found with outputRoom := some ⟨0, cause⟩ }

/-- The files of a tree that hold other bytes than in another one, or do not stand there. -/
def changedFiles (old new : FileTree) : List (Place × List UInt8) :=
  new.entries.filterMap fun
    | (place, .file number) =>
      let bytes := (new.body number).bytes
      let kept := match old.lookup? place with
        | some (.file number') => (old.body number').bytes == bytes
        | _ => false
      if kept then none else some (place, bytes)
    | _ => none

/-- Writes a file. -/
def store (place : Place) (bytes : List UInt8) : IO (Option Refusal) := do
  match ← (IO.FS.Handle.mk (pathOf place) .write).toBaseIO with
  | .error cause => return some (.opening place (faultOf cause))
  | .ok handle =>
    match ← (handle.write ⟨bytes.toArray⟩ *> handle.flush).toBaseIO with
    | .ok _ => return none
    | .error cause =>
      let size := (← IO.FS.readBinFile (pathOf place)).size
      return some (.writing ⟨size, faultOf cause⟩)

/-- Writes the files that a run changed and its output, up to the first refusal. -/
def handOver (old : FileTree) (e : Execution) : IO (Option Refusal) := do
  for (place, bytes) in changedFiles old e.files do
    if let some refusal ← store place bytes then return some refusal
  let output ← IO.getStdout
  match ← (output.write ⟨e.output.bytes.toArray⟩ *> output.flush).toBaseIO with
  | .ok _ => return none
  | .error cause => return some (.printing (faultOf cause))

/-- What is printed when help is wanted. -/
def helpText : String :=
  "Build and analyse the import dependency graph of a set of modules\n\n" ++
    "Usage: modgraph [OPTIONS] [INPUT]...\n\nOptions:\n" ++
    "  -o, --output <OUTPUT>      text, json, csv or dot\n" ++
    "      --output-file <FILE>   File to write output to\n" ++
    "  -e, --exclude <PATTERN>    Glob pattern on module names to leave out\n" ++
    "      --stdlib <NAME>        Top-level name to treat as standard library\n" ++
    "      --skip-invalid         Skip modules with a malformed name\n" ++
    "      --external-limit <N>   Number of external packages listed in the text report\n" ++
    "  -q, --quiet                Suppress non-essential output\n" ++
    "  -v, --verbose              Show detailed output\n" ++
    "  -c, --config <FILE>        Path to configuration file\n" ++
    "      --no-parallel          Analyse inputs one after another\n" ++
    "      --no-colors            Disable colored output\n" ++
    "      --init                 Create a default configuration file\n" ++
    "  -h, --help                 Print help\n" ++
    "  -V, --version              Print version\n"

/-- What is said about a command line that says nothing. -/
def faultText : ArgumentFault → String
  | .unknownName => "error: unexpected argument\n"
  | .invalidValue => "error: a value is missing or not possible\n"
  | .notCount => "error: invalid value for '--external-limit <N>'\n"
  | .repeated => "error: an argument cannot be used multiple times\n"
  | .flagWithValue => "error: unexpected value\n"
  | .helpWanted => helpText
  | .versionWanted => versionText

/-- Carries out a run.  If the system refuses something, the run is the one that finds this out. -/
def carryOut (a : Arguments) : IO UInt32 := do
  let found ← surroundings a
  let meant := execute found a
  let e := match ← handOver found.files meant with
    | none => meant
    | some refusal => execute (refused found refusal) a
  for notice in e.allNotices do
    (← IO.getStderr).putStr notice.text
  return UInt32.ofNat e.exitStatus

end ModuleDeps.CommandLine

open ModuleDeps ModuleDeps.CommandLine in
/-- The program. -/
def main (arguments : List String) : IO UInt32 := do
  match Arguments.parse arguments with
  | .ok a => carryOut a
  | .error .helpWanted => (← IO.getStdout).putStr (faultText .helpWanted); return 0
  | .error .versionWanted => (← IO.getStdout).putStr (faultText .versionWanted); return 0
  | .error fault => (← IO.getStderr).putStr (faultText fault); return 2
