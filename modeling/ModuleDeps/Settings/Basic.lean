/-
Settings, and the layers they are merged from.

A layer gives some settings and leaves the others open.  Layers are laid over each other: what the
upper one gives counts, and what it leaves open comes from the lower one.  What no layer gives has a
default.

Main definitions:

* `ModuleDeps.SettingsLayer`, `ModuleDeps.Settings` — some settings, and all of them;
* `ModuleDeps.SettingsLayer.empty` — the layer that gives nothing;
* `ModuleDeps.SettingsLayer.mergeWith` — a layer with another laid over it;
* `ModuleDeps.SettingsLayer.toSettings` — a layer over the defaults.

Main results:

* `ModuleDeps.SettingsLayer.mergeWith_assoc`, `ModuleDeps.SettingsLayer.mergeWith_empty`,
  `ModuleDeps.SettingsLayer.empty_mergeWith` — layers form a monoid.
-/

import ModuleDeps.Analysis
import ModuleDeps.Report.Format
import ModuleDeps.Text.Raw

set_option relaxedAutoImplicit false
set_option autoImplicit false

namespace ModuleDeps

/-- Some settings. -/
structure SettingsLayer where
  /-- The module lists to analyse. -/
  inputs : Option (List RawText)
  /-- The format of the report. -/
  outputFormat : Option OutputFormat
  /-- The file that gets the report. -/
  outputFile : Option RawText
  /-- Is the report coloured? -/
  useColors : Option Bool
  /-- Is it as short as possible? -/
  quiet : Option Bool
  /-- Is it as detailed as possible? -/
  verbose : Option Bool
  /-- May several inputs be analysed at once? -/
  parallel : Option Bool
  /-- How many external packages does the report list? -/
  externalLimit : Option Nat
  /-- Names that count as standard library beside the built-in ones. -/
  extraStdlib : Option (List String)
  /-- Modules with a name that matches one of these patterns are left out. -/
  excludePatterns : Option (List String)
  /-- Are modules with a flawed name left out? -/
  skipInvalid : Option Bool
  deriving DecidableEq, Repr

/-- All settings. -/
structure Settings where
  /-- The module lists to analyse. -/
  inputs : List RawText
  /-- The format of the report. -/
  outputFormat : OutputFormat
  /-- The file that gets the report, if it does not go to the standard output. -/
  outputFile : Option RawText
  /-- Is the report coloured? -/
  useColors : Bool
  /-- Is it as short as possible? -/
  quiet : Bool
  /-- Is it as detailed as possible? -/
  verbose : Bool
  /-- May several inputs be analysed at once? -/
  parallel : Bool
  /-- How many external packages does the report list? -/
  externalLimit : Nat
  /-- What the analysis is told. -/
  analysis : AnalysisConfig
  deriving DecidableEq, Repr

/-- The layout of a report that settings ask for. -/
def Settings.layout (s : Settings) : Layout :=
  ⟨s.useColors, s.verbose, s.quiet, s.externalLimit⟩

namespace SettingsLayer

/-- The layer that gives nothing. -/
def empty : SettingsLayer :=
  ⟨none, none, none, none, none, none, none, none, none, none, none⟩

/-- A layer with another laid over it. -/
def mergeWith (lower upper : SettingsLayer) : SettingsLayer where
  inputs := upper.inputs.or lower.inputs
  outputFormat := upper.outputFormat.or lower.outputFormat
  outputFile := upper.outputFile.or lower.outputFile
  useColors := upper.useColors.or lower.useColors
  quiet := upper.quiet.or lower.quiet
  verbose := upper.verbose.or lower.verbose
  parallel := upper.parallel.or lower.parallel
  externalLimit := upper.externalLimit.or lower.externalLimit
  extraStdlib := upper.extraStdlib.or lower.extraStdlib
  excludePatterns := upper.excludePatterns.or lower.excludePatterns
  skipInvalid := upper.skipInvalid.or lower.skipInvalid

@[simp] theorem mergeWith_empty (layer : SettingsLayer) : layer.mergeWith empty = layer := rfl

@[simp] theorem empty_mergeWith (layer : SettingsLayer) : empty.mergeWith layer = layer := by
  simp [mergeWith, empty]

/-- Of three layers it does not matter which two are merged first. -/
theorem mergeWith_assoc (a b c : SettingsLayer) :
    (a.mergeWith b).mergeWith c = a.mergeWith (b.mergeWith c) := by
  simp [mergeWith, Option.or_assoc]

/-- A layer over the defaults: a coloured text with ten external packages, of inputs that may be
analysed at once. -/
def toSettings (layer : SettingsLayer) : Settings where
  inputs := layer.inputs.getD []
  outputFormat := layer.outputFormat.getD .text
  outputFile := layer.outputFile
  useColors := layer.useColors.getD true
  quiet := layer.quiet.getD false
  verbose := layer.verbose.getD false
  parallel := layer.parallel.getD true
  externalLimit := layer.externalLimit.getD 10
  analysis := ⟨layer.extraStdlib.getD [], layer.excludePatterns.getD [],
    layer.skipInvalid.getD false⟩

end SettingsLayer

end ModuleDeps
