/-
The arguments of a command line.

An argument that starts with two dashes names an option or a flag; one that starts with a single
dash bundles short names of flags, of which the last may be an option with its value.  Other
arguments, and all that follow two dashes alone, are inputs.  The value of an option stands behind
an equals sign, or behind its short name, or is the next argument.

A value from the next argument is judged only when the next option, flag or group of inputs begins,
or at the end.  So of two faults the one in a later argument may be told, if it lies in that
argument's name.

Main definitions:

* `ModuleDeps.Arguments` — what a command line says;
* `ModuleDeps.ArgumentFault` — why a command line says nothing;
* `ModuleDeps.Arguments.parse` — what the arguments of a command line say;
* `ModuleDeps.Arguments.layer` — the settings that they give.
-/

import ModuleDeps.Settings.Basic
import ModuleDeps.Text.Count

set_option relaxedAutoImplicit false
set_option autoImplicit false

namespace ModuleDeps

/-- What a command line says. -/
structure Arguments where
  /-- The module lists to analyse. -/
  inputs : List RawText
  /-- The format of the report. -/
  output : Option OutputFormat
  /-- The file that gets the report. -/
  outputFile : Option RawText
  /-- Patterns for the modules to leave out. -/
  exclude : List String
  /-- Names that count as standard library. -/
  stdlib : List String
  /-- Are modules with a flawed name left out? -/
  skipInvalid : Bool
  /-- How many external packages does the report list? -/
  externalLimit : Option Nat
  /-- Is the report as short as possible? -/
  quiet : Bool
  /-- Is it as detailed as possible? -/
  verbose : Bool
  /-- The settings file. -/
  config : Option RawText
  /-- Are the inputs analysed one after another? -/
  noParallel : Bool
  /-- Is the report without colours? -/
  noColors : Bool
  /-- Is a settings file wanted instead of an analysis? -/
  init : Bool
  deriving DecidableEq, Repr

/-- Why a command line says nothing. -/
inductive ArgumentFault where
  /-- An argument names no option and no flag. -/
  | unknownName
  /-- An option has no value, or one that it does not take. -/
  | invalidValue
  /-- The value of an option is not a count. -/
  | notCount
  /-- An option or a flag stands twice. -/
  | repeated
  /-- A flag has a value. -/
  | flagWithValue
  /-- Help is wanted. -/
  | helpWanted
  /-- The version is wanted. -/
  | versionWanted
  deriving DecidableEq, Repr

/-- An option with a value. -/
inductive ValueOption where
  /-- The format of the report. -/
  | output
  /-- The file that gets the report. -/
  | outputFile
  /-- A pattern for modules to leave out. -/
  | exclude
  /-- A name that counts as standard library. -/
  | stdlib
  /-- How many external packages the report lists. -/
  | externalLimit
  /-- The settings file. -/
  | config
  deriving DecidableEq, Repr

/-- A flag. -/
inductive Flag where
  /-- Modules with a flawed name are left out. -/
  | skipInvalid
  /-- The report is as short as possible. -/
  | quiet
  /-- It is as detailed as possible. -/
  | verbose
  /-- The inputs are analysed one after another. -/
  | noParallel
  /-- The report is without colours. -/
  | noColors
  /-- A settings file is wanted. -/
  | init
  /-- Help is wanted. -/
  | help
  /-- The version is wanted. -/
  | version
  deriving DecidableEq, Repr

/-- What a name on the command line stands for. -/
inductive Switch where
  /-- An option with a value. -/
  | option (o : ValueOption)
  /-- A flag. -/
  | flag (f : Flag)
  deriving DecidableEq, Repr

/-- The option or flag with a long name. -/
def Switch.ofLong? : String → Option Switch
  | "output" => some (.option .output)
  | "output-file" => some (.option .outputFile)
  | "exclude" => some (.option .exclude)
  | "stdlib" => some (.option .stdlib)
  | "external-limit" => some (.option .externalLimit)
  | "config" => some (.option .config)
  | "skip-invalid" => some (.flag .skipInvalid)
  | "quiet" => some (.flag .quiet)
  | "verbose" => some (.flag .verbose)
  | "no-parallel" => some (.flag .noParallel)
  | "no-colors" => some (.flag .noColors)
  | "init" => some (.flag .init)
  | "help" => some (.flag .help)
  | "version" => some (.flag .version)
  | _ => none

/-- The option or flag with a short name. -/
def Switch.ofShort? : Char → Option Switch
  | 'o' => some (.option .output)
  | 'e' => some (.option .exclude)
  | 'c' => some (.option .config)
  | 'q' => some (.flag .quiet)
  | 'v' => some (.flag .verbose)
  | 'h' => some (.flag .help)
  | 'V' => some (.flag .version)
  | _ => none

namespace Arguments

/-- What an empty command line says. -/
def empty : Arguments :=
  ⟨[], none, none, [], [], false, none, false, false, none, false, false, false⟩

/-! ### Options, flags and inputs -/

/-- A value for an option that takes one, unless it has one already. -/
def once {α : Type} (given : Option α) (value : Except ArgumentFault α) :
    Except ArgumentFault (Option α) :=
  if given.isSome then .error .repeated else value.map some

/-- The path that a value is. -/
def path (value : String) : Except ArgumentFault RawText :=
  if value.isEmpty then .error .invalidValue else .ok (.ofText value)

/-- Gives an option a value. -/
def setOption (a : Arguments) (value : String) : ValueOption → Except ArgumentFault Arguments
  | .output => do
    let format := match OutputFormat.ofWord? value with
      | some format => .ok format
      | none => .error .invalidValue
    return { a with output := ← once a.output format }
  | .outputFile => do return { a with outputFile := ← once a.outputFile (path value) }
  | .exclude => .ok { a with exclude := a.exclude ++ [value] }
  | .stdlib => .ok { a with stdlib := a.stdlib ++ [value] }
  | .externalLimit => do
    let count := match Text.count? value.toList with
      | some n => .ok n
      | none => .error .notCount
    return { a with externalLimit := ← once a.externalLimit count }
  | .config => do return { a with config := ← once a.config (path value) }

/-- The truth of a flag that was given, unless it was given before. -/
def raise (given : Bool) : Except ArgumentFault Bool :=
  if given then .error .repeated else .ok true

/-- Sets a flag. -/
def setFlag (a : Arguments) : Flag → Except ArgumentFault Arguments
  | .skipInvalid => do return { a with skipInvalid := ← raise a.skipInvalid }
  | .quiet => do return { a with quiet := ← raise a.quiet }
  | .verbose => do return { a with verbose := ← raise a.verbose }
  | .noParallel => do return { a with noParallel := ← raise a.noParallel }
  | .noColors => do return { a with noColors := ← raise a.noColors }
  | .init => do return { a with init := ← raise a.init }
  | .help => .error .helpWanted
  | .version => .error .versionWanted

/-- Adds inputs. -/
def addInputs (a : Arguments) (inputs : List String) : Except ArgumentFault Arguments := do
  return { a with inputs := a.inputs ++ (← inputs.mapM path) }

/-! ### Reading -/

/-- What has been read and not been judged yet. -/
inductive Pending where
  /-- Nothing. -/
  | nothing
  /-- An option, and its value if that has been read. -/
  | option (o : ValueOption) (value : Option String)
  /-- A group of inputs, of which the last comes first. -/
  | inputs (read : List String)
  deriving DecidableEq, Repr

/-- How far a command line has been read. -/
structure Progress where
  /-- What it says so far. -/
  arguments : Arguments
  /-- What has not been judged yet. -/
  pending : Pending
  /-- Are all further arguments inputs? -/
  inputsOnly : Bool
  deriving DecidableEq, Repr

/-- Judges what is pending. -/
def Progress.settle (p : Progress) : Except ArgumentFault Progress := do
  let a ← match p.pending with
    | .nothing => .ok p.arguments
    | .option _ none => .error .invalidValue
    | .option o (some value) => p.arguments.setOption value o
    | .inputs read => p.arguments.addInputs read.reverse
  return { p with arguments := a, pending := .nothing }

/-- Reads an option with its value. -/
def Progress.option (p : Progress) (o : ValueOption) (value : String) :
    Except ArgumentFault Progress := do
  let p ← p.settle
  return { p with arguments := ← p.arguments.setOption value o }

/-- Reads an option whose value is the next argument. -/
def Progress.openOption (p : Progress) (o : ValueOption) : Except ArgumentFault Progress := do
  return { ← p.settle with pending := .option o none }

/-- Reads a flag. -/
def Progress.flag (p : Progress) (f : Flag) : Except ArgumentFault Progress := do
  let p ← p.settle
  return { p with arguments := ← p.arguments.setFlag f }

/-- Reads an input. -/
def Progress.input (p : Progress) (text : String) : Except ArgumentFault Progress :=
  match p.pending with
  | .inputs read => .ok { p with pending := .inputs (text :: read) }
  | _ => do return { ← p.settle with pending := .inputs [text] }

/-- Reads the value of the option that waits for one, or an input. -/
def Progress.word (p : Progress) (text : String) : Except ArgumentFault Progress :=
  match p.pending with
  | .option o none => .ok { p with pending := .option o (some text) }
  | _ => p.input text

/-- Reads what follows two dashes. -/
def Progress.long (p : Progress) (text : List Char) : Except ArgumentFault Progress :=
  let name := String.ofList (text.takeWhile (· != '='))
  match Switch.ofLong? name, text.dropWhile (· != '=') with
  | none, _ => .error .unknownName
  | some (.option o), _ :: value => p.option o (String.ofList value)
  | some (.option o), [] => p.openOption o
  | some (.flag _), _ :: _ => .error .flagWithValue
  | some (.flag f), [] => p.flag f

/-- Reads what follows a single dash. -/
def Progress.bundle (p : Progress) : List Char → Except ArgumentFault Progress
  | [] => .ok p
  | c :: rest =>
    match Switch.ofShort? c, rest with
    | none, _ => .error .unknownName
    | some (.flag f), _ => (p.flag f).bind fun p' => p'.bundle rest
    | some (.option o), [] => p.openOption o
    | some (.option o), '=' :: value => p.option o (String.ofList value)
    | some (.option o), value => p.option o (String.ofList value)

/-- Reads an argument. -/
def Progress.read (p : Progress) (argument : String) : Except ArgumentFault Progress :=
  if p.inputsOnly then p.input argument
  else
    match argument.toList with
    | ['-', '-'] => .ok { p with inputsOnly := true }
    | '-' :: '-' :: text => p.long text
    | '-' :: c :: rest => p.bundle (c :: rest)
    | _ => p.word argument

/-- What the arguments of a command line say. -/
def parse (arguments : List String) : Except ArgumentFault Arguments := do
  let p ← arguments.foldlM Progress.read ⟨empty, .nothing, false⟩
  return (← p.settle).arguments

/-! ### What they mean -/

/-- A list if something is in it. -/
def nonEmpty? {α : Type} (items : List α) : Option (List α) :=
  if items.isEmpty then none else some items

/-- A value if a flag is set. -/
def when? (flag value : Bool) : Option Bool :=
  if flag then some value else none

/-- The settings that the arguments give. -/
def layer (a : Arguments) : SettingsLayer where
  inputs := nonEmpty? a.inputs
  outputFormat := a.output
  outputFile := a.outputFile
  useColors := when? a.noColors false
  quiet := when? a.quiet true
  verbose := when? a.verbose true
  parallel := when? a.noParallel false
  externalLimit := a.externalLimit
  extraStdlib := nonEmpty? a.stdlib
  excludePatterns := nonEmpty? a.exclude
  skipInvalid := when? a.skipInvalid true

/-- The name of the arguments among the sources of settings. -/
def sourceName : String := "command-line arguments"

/-- The rank of the arguments among the sources of settings. -/
def sourcePriority : Nat := 30

/-- The name of the least important messages that are logged. -/
def logLevel (a : Arguments) : String :=
  if a.verbose then "debug" else if a.quiet then "error" else "warn"

end Arguments

end ModuleDeps
