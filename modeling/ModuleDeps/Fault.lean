/-
Everything that can go wrong, and how it is told.

A fault is told twice: as a plain message, and in the words meant for the person at the command
line, which sometimes add advice.  Its severity says how far it reaches: a warning concerns one
name, an error one step, and a critical fault ends the run.

Main definitions:

* `ModuleDeps.FileFault` — why a file could not be read or written;
* `ModuleDeps.Severity` — how far a fault reaches;
* `ModuleDeps.Fault` — a fault, with `Fault.message`, `Fault.userMessage` and `Fault.severity`.
-/

import ModuleDeps.Glob

set_option relaxedAutoImplicit false
set_option autoImplicit false

namespace ModuleDeps

/-! ### Files -/

/-- Why a file could not be read or written. -/
inductive FileFault where
  /-- There is nothing at the path. -/
  | notFound
  /-- A part of the path other than its last one is a file. -/
  | notDirectory
  /-- The path leads to a directory. -/
  | isDirectory
  /-- The path, or a name in it, is too long. -/
  | nameTooLong
  /-- There are too many links on the way of the path. -/
  | tooManyLinks
  /-- The permission for it is missing. -/
  | permissionDenied
  /-- The bytes of the file are no UTF-8 text. -/
  | notText
  /-- Any other reason, in the words of the file system. -/
  | other (text : String)
  deriving DecidableEq, Repr

/-- What is said about a file that could not be read or written. -/
def FileFault.text : FileFault → String
  | .notFound => "No such file or directory (os error 2)"
  | .notDirectory => "Not a directory (os error 20)"
  | .isDirectory => "Is a directory (os error 21)"
  | .nameTooLong => "File name too long (os error 36)"
  | .tooManyLinks => "Too many levels of symbolic links (os error 40)"
  | .permissionDenied => "Permission denied (os error 13)"
  | .notText => "stream did not contain valid UTF-8"
  | .other text => text

/-! ### Severities -/

/-- How far a fault reaches. -/
inductive Severity where
  /-- The work goes on. -/
  | warning
  /-- The step at hand fails, the rest goes on. -/
  | error
  /-- The run ends. -/
  | critical
  deriving DecidableEq, Repr

/-- The word for a severity. -/
def Severity.text : Severity → String
  | .warning => "WARNING"
  | .error => "ERROR"
  | .critical => "CRITICAL"

/-! ### Readers -/

/-- Why a text was not taken as a JSON value of the expected shape. -/
inductive JsonFlaw where
  /-- The text breaks the rules of JSON. -/
  | malformed
  /-- The text ends before its value does. -/
  | truncated
  /-- The text is JSON, but not of the expected shape. -/
  | mismatched
  deriving DecidableEq, Repr

/-! ### Faults -/

/-- Everything that can go wrong. -/
inductive Fault where
  /-- A file could not be read or written. -/
  | file (cause : FileFault)
  /-- A file holds no module list; `detail` is what the reader said. -/
  | moduleList (path : String) (flaw : JsonFlaw) (detail : String)
  /-- There is no such input file. -/
  | inputNotFound (path : String)
  /-- A module's name breaks the rules for names. -/
  | invalidModule (name reason : String)
  /-- A relative name could not be made absolute. -/
  | relativeImport (name source reason : String)
  /-- A setting is not acceptable. -/
  | settings (text : String)
  /-- There is no such settings file. -/
  | settingsNotFound (path : String)
  /-- A settings file could not be read. -/
  | settingsRead (path : String) (cause : FileFault)
  /-- A settings file does not hold settings; `detail` is what the reader said. -/
  | settingsParse (path detail : String)
  /-- A text is no pattern. -/
  | pattern (flaw : Glob.Flaw)
  /-- A word names no output format. -/
  | outputFormat (word : String)
  /-- The output file could not be written. -/
  | outputWrite (path : String) (cause : FileFault)
  /-- The standard output could not be written. -/
  | standardOutput (cause : FileFault)
  /-- A value could not be written as JSON. -/
  | jsonWrite (detail : String)
  /-- A table could not be written as CSV. -/
  | csvWrite (detail : String)
  /-- Any other fault of an analysis. -/
  | analysis (text : String)
  deriving DecidableEq, Repr

namespace Fault

/-- The plain message of a fault. -/
def message : Fault → String
  | .file cause => "IO error: " ++ cause.text
  | .moduleList path _ detail => "JSON parsing error in " ++ path ++ ": " ++ detail
  | .inputNotFound path => "Input file not found: " ++ path
  | .invalidModule name reason => "Invalid module '" ++ name ++ "': " ++ reason
  | .relativeImport name source reason =>
    "Cannot resolve relative import '" ++ name ++ "' from '" ++ source ++ "': " ++ reason
  | .settings text => "Configuration error: " ++ text
  | .settingsNotFound path => "Configuration file not found at " ++ path
  | .settingsRead path cause =>
    "Error reading configuration file " ++ path ++ ": " ++ cause.text
  | .settingsParse path detail => "Error parsing configuration file " ++ path ++ ": " ++ detail
  | .pattern flaw => "Glob pattern error: " ++ flaw.message
  | .outputFormat word => "Invalid output format: " ++ word
  | .outputWrite path cause => "Error writing to output file " ++ path ++ ": " ++ cause.text
  | .standardOutput cause => "Error writing to stdout: " ++ cause.text
  | .jsonWrite detail => "JSON serialization error: " ++ detail
  | .csvWrite detail => "CSV error: " ++ detail
  | .analysis text => "Analysis error: " ++ text

/-- The message of a fault for the person at the command line. -/
def userMessage : Fault → String
  | .moduleList path _ detail =>
    "Invalid module list in '" ++ path ++ "': " ++ detail ++
      ". Expected a JSON array of \x7bname, path, imports\x7d records."
  | .inputNotFound path => "Input file '" ++ path ++ "' does not exist."
  | .file cause => "File system error: " ++ cause.text ++ ". Check disk space and permissions."
  | .settingsNotFound path =>
    "Configuration file not found at '" ++ path ++
      "'. Create one with --init or use command line options."
  | .outputWrite path cause =>
    "Cannot write output to '" ++ path ++ "': " ++ cause.text ++
      ". Check that the directory exists and is writable."
  | fault => fault.message

/-- How far a fault reaches. -/
def severity : Fault → Severity
  | .relativeImport .. | .invalidModule .. => .warning
  | .inputNotFound .. | .moduleList .. | .settings .. | .settingsNotFound .. | .settingsRead ..
  | .settingsParse .. | .outputFormat .. | .standardOutput .. | .outputWrite .. => .critical
  | .file .. | .pattern .. | .jsonWrite .. | .csvWrite .. | .analysis .. => .error

/-- Does the fault end the run? -/
def isCritical (fault : Fault) : Bool :=
  fault.severity == .critical

/-- What is left of a fault once it has been noted: only a critical one is handed on. -/
def handedOn (fault : Fault) : Option Fault :=
  if fault.isCritical then some fault else none

/-- A cause told together with what was being done when it came up. -/
def inContext (context cause : String) : Fault :=
  .analysis (context ++ ": " ++ cause)

end Fault

end ModuleDeps
