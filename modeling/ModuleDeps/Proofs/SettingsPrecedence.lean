/-
Which layer a setting comes from.

The settings of a run come from the command line, the environment, a settings file and the defaults,
and there are eleven of them.  Each one is looked at by itself here: a setting of merged layers is
that of the last layer that gives it, and the setting of a run is the one of the command line, else
of the environment, else of the file, else the default.

What a source gives is said from its raw data: the variable with the name of the setting, the key of
the setting in the table of the file, the argument.  The keys of a table are all different, since
the reader of the file refuses to give a key a second value, so a key has one value.  A source that
holds something unreadable for a setting stops the run.

Main definitions:

* `ModuleDeps.Setting` — the settings one by one, with their values, defaults and names;
* `ModuleDeps.SettingsLayer.get`, `ModuleDeps.Settings.get` — a setting of a layer and of a run;
* `ModuleDeps.Arguments.given`, `ModuleDeps.Setting.variableText?`, `ModuleDeps.Setting.member?` —
  what the sources hold for a setting.

Main results:

* `ModuleDeps.SettingsLayer.get_foldl_mergeWith` — the last layer that gives a setting counts;
* `ModuleDeps.Toml.nodup_read` — the keys of a table that was read are all different;
* `ModuleDeps.EnvironmentSettings.loadOver_eq` — looking first whether a variable is set changes
  nothing;
* `ModuleDeps.settings_follow_precedence` — **every setting comes from the source that goes first**.
-/

import Mathlib.Data.List.Induction
import ModuleDeps.Proofs.EdgeMaps
import ModuleDeps.Settings.Load

set_option relaxedAutoImplicit false
set_option autoImplicit false

namespace ModuleDeps

/-! ### Settings one by one -/

/-- A setting. -/
inductive Setting where
  | inputs
  | outputFormat
  | outputFile
  | useColors
  | quiet
  | verbose
  | parallel
  | externalLimit
  | extraStdlib
  | excludePatterns
  | skipInvalid
  deriving DecidableEq, Repr

namespace Setting

/-- The values that a setting takes. -/
abbrev Value : Setting → Type
  | inputs => List RawText
  | extraStdlib | excludePatterns => List String
  | outputFormat => OutputFormat
  | outputFile => RawText
  | externalLimit => Nat
  | useColors | quiet | verbose | parallel | skipInvalid => Bool

/-- The value of a setting that no source gives; there need not be a file for the report. -/
def default : (f : Setting) → Option f.Value
  | inputs => some []
  | outputFormat => some .text
  | outputFile => none
  | useColors => some true
  | quiet => some false
  | verbose => some false
  | parallel => some true
  | externalLimit => some 10
  | extraStdlib => some []
  | excludePatterns => some []
  | skipInvalid => some false

/-- How the name of the variable of a setting ends. -/
def variableKey? : Setting → Option String
  | inputs => some "INPUTS"
  | outputFormat => some "OUTPUT_FORMAT"
  | outputFile => some "OUTPUT_FILE"
  | useColors => some "COLORS"
  | quiet => none
  | verbose => none
  | parallel => some "PARALLEL"
  | externalLimit => some "EXTERNAL_LIMIT"
  | extraStdlib => some "STDLIB"
  | excludePatterns => some "EXCLUDE"
  | skipInvalid => some "SKIP_INVALID"

open EnvironmentSettings (items paths folded truth?) in
/-- The value that the text of a variable means. -/
def readVariable? : (f : Setting) → String → Option f.Value
  | inputs, text => some (paths text)
  | extraStdlib, text | excludePatterns, text => some (items text)
  | outputFormat, text => OutputFormat.ofWord? (Text.toLower text)
  | outputFile, text => some (.ofText text)
  | externalLimit, text => Text.count? (Text.trim text.toList)
  | useColors, text | quiet, text | verbose, text | parallel, text | skipInvalid, text =>
    truth? (folded text)

/-- The key of a setting in a file. -/
def memberName : Setting → String
  | inputs => "inputs"
  | outputFormat => "output_format"
  | outputFile => "output_file"
  | useColors => "use_colors"
  | quiet => "quiet"
  | verbose => "verbose"
  | parallel => "parallel"
  | externalLimit => "show_external_limit"
  | extraStdlib => "extra_stdlib_modules"
  | excludePatterns => "exclude_patterns"
  | skipInvalid => "skip_invalid_modules"

/-- The value of a setting that a value in a file means. -/
def readMember? : (f : Setting) → Toml → Option f.Value
  | inputs, v => v.toPaths?
  | extraStdlib, v | excludePatterns, v => v.toStrings?
  | outputFormat, v => v.toFormat?
  | outputFile, v => v.toPath?
  | externalLimit, v => v.toCount?
  | useColors, v | quiet, v | verbose, v | parallel, v | skipInvalid, v => v.toBool?

theorem memberName_injective : Function.Injective memberName := by
  intro f f' h
  cases f <;> cases f' <;> simp_all [memberName]

/-- The text of the variable of a setting, if it is set. -/
def variableText? (f : Setting) (stem : String) (vars : Environment) : Option String :=
  f.variableKey?.bind fun key => vars.get? (stem ++ "_" ++ key)

end Setting

/-- The settings file of a run: the one that is asked for, or the first one at a default place. -/
def settingsPath? (found : Surroundings) (config : Option RawText) : Option RawText :=
  config.or (found.directories.settingsPaths.find? found.files.isFile)

/-- The table in the settings file of a run. -/
def settingsTable? (found : Surroundings) (config : Option RawText) : Option Toml.Members :=
  (settingsPath? found config).bind fun path =>
    (found.files.readText path).toOption.bind Toml.read

/-- What the settings file of a run holds for a setting. -/
def Setting.member? (f : Setting) (found : Surroundings) (config : Option RawText) : Option Toml :=
  (settingsTable? found config).bind (lookupEntry f.memberName)

/-- What a command line gives for a setting: a list with something in it, a value, or a flag, which
can only turn a setting on or off. -/
def Arguments.given (a : Arguments) : (f : Setting) → Option f.Value
  | .inputs => if a.inputs = [] then none else some a.inputs
  | .outputFormat => a.output
  | .outputFile => a.outputFile
  | .useColors => if a.noColors then some false else none
  | .quiet => if a.quiet then some true else none
  | .verbose => if a.verbose then some true else none
  | .parallel => if a.noParallel then some false else none
  | .externalLimit => a.externalLimit
  | .extraStdlib => if a.stdlib = [] then none else some a.stdlib
  | .excludePatterns => if a.exclude = [] then none else some a.exclude
  | .skipInvalid => if a.skipInvalid then some true else none

/-- A setting of a layer. -/
def SettingsLayer.get (layer : SettingsLayer) : (f : Setting) → Option f.Value
  | .inputs => layer.inputs
  | .outputFormat => layer.outputFormat
  | .outputFile => layer.outputFile
  | .useColors => layer.useColors
  | .quiet => layer.quiet
  | .verbose => layer.verbose
  | .parallel => layer.parallel
  | .externalLimit => layer.externalLimit
  | .extraStdlib => layer.extraStdlib
  | .excludePatterns => layer.excludePatterns
  | .skipInvalid => layer.skipInvalid

/-- A layer that gives a value for a setting. -/
def SettingsLayer.set (layer : SettingsLayer) : (f : Setting) → f.Value → SettingsLayer
  | .inputs, x => { layer with inputs := some x }
  | .outputFormat, x => { layer with outputFormat := some x }
  | .outputFile, x => { layer with outputFile := some x }
  | .useColors, x => { layer with useColors := some x }
  | .quiet, x => { layer with quiet := some x }
  | .verbose, x => { layer with verbose := some x }
  | .parallel, x => { layer with parallel := some x }
  | .externalLimit, x => { layer with externalLimit := some x }
  | .extraStdlib, x => { layer with extraStdlib := some x }
  | .excludePatterns, x => { layer with excludePatterns := some x }
  | .skipInvalid, x => { layer with skipInvalid := some x }

/-- A setting of a run. -/
def Settings.get (s : Settings) : (f : Setting) → Option f.Value
  | .inputs => some s.inputs
  | .outputFormat => some s.outputFormat
  | .outputFile => s.outputFile
  | .useColors => some s.useColors
  | .quiet => some s.quiet
  | .verbose => some s.verbose
  | .parallel => some s.parallel
  | .externalLimit => some s.externalLimit
  | .extraStdlib => some s.analysis.extraStdlib
  | .excludePatterns => some s.analysis.excludePatterns
  | .skipInvalid => some s.analysis.skipInvalid

namespace SettingsLayer

/-! ### Merging -/

@[simp] theorem get_empty (f : Setting) : empty.get f = none := by
  cases f <;> rfl

@[simp] theorem get_mergeWith (lower upper : SettingsLayer) (f : Setting) :
    (lower.mergeWith upper).get f = (upper.get f).or (lower.get f) := by
  cases f <;> rfl

theorem get_set (layer : SettingsLayer) (f : Setting) (x : f.Value) :
    (layer.set f x).get f = some x := by
  cases f <;> rfl

theorem get_set_of_ne (layer : SettingsLayer) {f f' : Setting} (h : f' ≠ f) (x : f.Value) :
    (layer.set f x).get f' = layer.get f' := by
  cases f <;> cases f' <;> first | rfl | contradiction

/-- A member with the name of a setting gives the setting. -/
theorem withMember_memberName (layer : SettingsLayer) (f : Setting) (v : Toml) :
    layer.withMember f.memberName v = (f.readMember? v).map (layer.set f) := by
  cases f <;> rfl

theorem get_toSettings (layer : SettingsLayer) (f : Setting) :
    layer.toSettings.get f = (layer.get f).or f.default := by
  cases f with
  | outputFile => exact Option.or_none.symm
  | _ => exact Option.or_some.symm

/-- The last layer that gives a setting counts. -/
theorem get_foldl_mergeWith (layers : List SettingsLayer) (f : Setting) :
    (layers.foldl mergeWith empty).get f = (layers.filterMap (·.get f)).getLast? := by
  induction layers using List.reverseRecOn with
  | nil => exact get_empty f
  | append_singleton layers layer ih =>
      rw [List.foldl_concat, get_mergeWith, ih, List.filterMap_append, List.getLast?_append]
      cases hlayer : layer.get f <;> simp [hlayer]

end SettingsLayer

theorem Arguments.nonEmpty?_eq {α : Type} (items : List α) :
    nonEmpty? items = if items = [] then none else some items := by
  cases items <;> rfl

theorem Arguments.get_layer (a : Arguments) (f : Setting) : a.layer.get f = a.given f := by
  cases f with
  | inputs => exact nonEmpty?_eq a.inputs
  | extraStdlib => exact nonEmpty?_eq a.stdlib
  | excludePatterns => exact nonEmpty?_eq a.exclude
  | _ => rfl

/-! ### What succeeds -/

section Success

variable {α β : Type} {x : Except Fault α}

theorem exists_of_bind_eq_ok {f : α → Except Fault β} {b : β} (h : x.bind f = .ok b) :
    ∃ a, x = .ok a ∧ f a = .ok b := by
  cases x with
  | error fault => cases h
  | ok a => exact ⟨a, rfl, h⟩

theorem exists_of_map_eq_ok {f : α → β} {b : β} (h : x.map f = .ok b) :
    ∃ a, x = .ok a ∧ f a = b := by
  cases x with
  | error fault => cases h
  | ok a => exact ⟨a, rfl, Except.ok.inj h⟩

end Success

/-! ### The environment -/

namespace EnvironmentSettings

variable {stem : String} {vars : Environment}

/-- A result that is `none` without data, what is read from the data, and a fault where nothing is
read, holds exactly what is read. -/
theorem rel_of_result {α β : Type} {raw : Option α} {read? : α → Option β}
    {result : Except Fault (Option β)} {x : Option β} (hx : result = .ok x)
    (hnone : raw = none → result = .ok none)
    (hsome : ∀ a b, raw = some a → read? a = some b → result = .ok (some b))
    (hfault : ∀ a, raw = some a → read? a = none → ∃ fault, result = .error fault) :
    Option.Rel (fun a b => read? a = some b) raw x := by
  cases raw with
  | none =>
      rw [hnone rfl] at hx
      cases hx
      exact .none
  | some a =>
      cases hread : read? a with
      | none =>
          obtain ⟨fault, hresult⟩ := hfault a rfl hread
          rw [hresult] at hx
          cases hx
      | some b =>
          rw [hsome a b rfl hread] at hx
          cases hx
          exact .some hread

theorem rel_flag {key : String} {x : Option Bool} (h : (ofStem stem).flag vars key = .ok x) :
    Option.Rel (fun text b => truth? (folded text) = some b) ((ofStem stem).get? vars key) x := by
  refine rel_of_result h (fun hraw => ?_) (fun text b hraw hread => ?_) (fun text hraw hread => ?_)
  · simp only [flag, hraw]
  · simp only [flag, hraw, hread]
  · exact ⟨_, by simp only [flag, hraw, hread]; rfl⟩

theorem rel_format {x : Option OutputFormat} (h : (ofStem stem).format vars = .ok x) :
    Option.Rel (fun text v => OutputFormat.ofWord? (Text.toLower text) = some v)
      ((ofStem stem).get? vars "OUTPUT_FORMAT") x := by
  refine rel_of_result h (fun hraw => ?_) (fun text v hraw hread => ?_) (fun text hraw hread => ?_)
  · simp only [format, hraw]
  · simp only [format, hraw, OutputFormat.parse, hread, Except.map]
  · exact ⟨_, by simp only [format, hraw, OutputFormat.parse, hread, Except.map]; rfl⟩

theorem rel_limit {x : Option Nat} (h : (ofStem stem).limit vars = .ok x) :
    Option.Rel (fun text n => Text.count? (Text.trim text.toList) = some n)
      ((ofStem stem).get? vars "EXTERNAL_LIMIT") x := by
  refine rel_of_result h (fun hraw => ?_) (fun text n hraw hread => ?_) (fun text hraw hread => ?_)
  · simp only [limit, hraw]
  · simp only [limit, hraw, hread]
  · exact ⟨_, by simp only [limit, hraw, hread]; rfl⟩

theorem rel_map {α β : Type} (raw : Option α) (read : α → β) :
    Option.Rel (fun a b => some (read a) = some b) raw (raw.map read) := by
  cases raw with
  | none => exact .none
  | some a => exact .some rfl

/-- What the environment gives for a setting is what its variable says. -/
theorem rel_load {layer : SettingsLayer} (h : (ofStem stem).load vars = .ok layer) (f : Setting) :
    Option.Rel (fun text v => f.readVariable? text = some v) (f.variableText? stem vars)
      (layer.get f) := by
  -- five variables can hold something unreadable; the others give what they hold
  obtain ⟨skipInvalid, hskip, h⟩ := exists_of_bind_eq_ok h
  obtain ⟨parallel, hparallel, h⟩ := exists_of_bind_eq_ok h
  obtain ⟨useColors, hcolors, h⟩ := exists_of_bind_eq_ok h
  obtain ⟨outputFormat, hformat, h⟩ := exists_of_bind_eq_ok h
  obtain ⟨externalLimit, hlimit, h⟩ := exists_of_bind_eq_ok h
  cases h
  cases f with
  | inputs => exact rel_map _ paths
  | outputFormat => exact rel_format hformat
  | outputFile => exact rel_map _ RawText.ofText
  | useColors => exact rel_flag hcolors
  | quiet => exact .none
  | verbose => exact .none
  | parallel => exact rel_flag hparallel
  | externalLimit => exact rel_limit hlimit
  | extraStdlib => exact rel_map _ items
  | excludePatterns => exact rel_map _ items
  | skipInvalid => exact rel_flag hskip

/-- Without a variable the environment gives nothing. -/
theorem load_of_unset (h : ∀ key ∈ keys, (ofStem stem).get? vars key = none) :
    (ofStem stem).load vars = .ok .empty := by
  simp only [keys, List.forall_mem_cons] at h
  obtain ⟨hinputs, hformat, hfile, hexclude, hstdlib, hskip, hparallel, hcolors, hlimit, -⟩ := h
  simp only [load, flag, format, limit, hinputs, hformat, hfile, hexclude, hstdlib, hskip,
    hparallel, hcolors, hlimit]
  rfl

/-- Looking first whether a variable is set changes nothing. -/
theorem loadOver_eq (layer : SettingsLayer) :
    (ofStem stem).loadOver vars layer = ((ofStem stem).load vars).map layer.mergeWith := by
  rw [loadOver]
  cases havailable : (ofStem stem).isAvailable vars with
  | true => rfl
  | false =>
      have hunset : ∀ key ∈ keys, (ofStem stem).get? vars key = none := by
        intro key hkey
        rw [isAvailable, List.any_eq_false] at havailable
        simpa using havailable key hkey
      rw [load_of_unset hunset, if_neg Bool.false_ne_true]
      exact congrArg Except.ok layer.mergeWith_empty.symm

end EnvironmentSettings

/-! ### The settings file -/

namespace Toml

/-- A member is replaced in its place, or stands behind the others. -/
theorem nodup_update {name : String} {rule : Option Toml → Option Toml} {ms ms' : Members}
    (h : update name rule ms = some ms') (hms : (ms.map Prod.fst).Nodup) :
    (ms'.map Prod.fst).Nodup ∧ ∀ x ∈ ms'.map Prod.fst, x = name ∨ x ∈ ms.map Prod.fst := by
  induction ms generalizing ms' with
  | nil =>
      obtain ⟨v, -, rfl⟩ := Option.map_eq_some_iff.1 h
      exact ⟨by simp, fun x hx => Or.inl (List.mem_singleton.1 hx)⟩
  | cons m ms ih =>
      rw [List.map_cons, List.nodup_cons] at hms
      rw [update] at h
      by_cases hname : m.1 = name
      · rw [if_pos hname] at h
        obtain ⟨v, -, rfl⟩ := Option.map_eq_some_iff.1 h
        subst hname
        exact ⟨List.nodup_cons.2 hms, fun x hx => Or.inr hx⟩
      · rw [if_neg hname] at h
        obtain ⟨rest, hrest, rfl⟩ := Option.map_eq_some_iff.1 h
        obtain ⟨hnodup, hmem⟩ := ih hrest hms.2
        refine ⟨List.nodup_cons.2 ⟨fun hin => ?_, hnodup⟩, fun x hx => ?_⟩
        · rcases hmem _ hin with heq | hin
          · exact hname heq
          · exact hms.1 hin
        · rcases List.mem_cons.1 hx with rfl | hx
          · exact Or.inr List.mem_cons_self
          · exact (hmem x hx).imp_right (List.mem_cons_of_mem _)

theorem nodup_openTable {path : List String} {ms ms' : Members} (h : openTable path ms = some ms')
    (hms : (ms.map Prod.fst).Nodup) : (ms'.map Prod.fst).Nodup := by
  rcases path with _ | ⟨name, _ | ⟨next, path⟩⟩
  · cases h
    exact hms
  · exact (nodup_update h hms).1
  · exact (nodup_update h hms).1

theorem nodup_assign {v : Toml} {path : List String} {ms ms' : Members}
    (h : assign v path ms = some ms') (hms : (ms.map Prod.fst).Nodup) :
    (ms'.map Prod.fst).Nodup := by
  rcases path with _ | ⟨name, _ | ⟨next, path⟩⟩
  · cases h
    exact hms
  · exact (nodup_update h hms).1
  · exact (nodup_update h hms).1

theorem nodup_assignUnder {header key : List String} {v : Toml} {ms ms' : Members}
    (h : assignUnder header key v ms = some ms') (hms : (ms.map Prod.fst).Nodup) :
    (ms'.map Prod.fst).Nodup := by
  cases header with
  | nil => exact nodup_assign h hms
  | cons name path => exact (nodup_update h hms).1

theorem nodup_readLines {header : List String} {ms ms' : Members} {cs : List Char}
    (h : readLines header ms cs = some ms') (hms : (ms.map Prod.fst).Nodup) :
    (ms'.map Prod.fst).Nodup := by
  fun_induction readLines header ms cs with
  | case1 =>
      cases h
      exact hms
  | case2 header ms cs rest hstart hlt ih =>
      obtain ⟨⟨path, left, hleft⟩, -, h⟩ := Option.bind_eq_some_iff.1 h
      obtain ⟨opened, hopened, h⟩ := Option.bind_eq_some_iff.1 h
      split at h
      · cases h
      · next next hnext =>
          exact ih path left hleft opened next hnext h (nodup_openTable hopened hms)
  | case3 header ms cs hnil hbracket hle ih =>
      obtain ⟨⟨⟨key, v⟩, left, hleft⟩, -, h⟩ := Option.bind_eq_some_iff.1 h
      obtain ⟨assigned, hassigned, h⟩ := Option.bind_eq_some_iff.1 h
      split at h
      · cases h
      · next next hnext =>
          exact ih left hleft assigned next hnext h (nodup_assignUnder hassigned hms)

/-- **The keys of a table that was read are all different.** -/
theorem nodup_read {text : String} {ms : Members} (h : read text = some ms) :
    (ms.map Prod.fst).Nodup :=
  nodup_readLines h List.nodup_nil

end Toml

namespace SettingsLayer

/-- Only the names of settings are accepted. -/
theorem exists_memberName_of_withMember {layer layer' : SettingsLayer} {name : String} {v : Toml}
    (h : layer.withMember name v = some layer') : ∃ f : Setting, name = f.memberName := by
  unfold withMember at h
  split at h
  · exact ⟨.inputs, rfl⟩
  · exact ⟨.outputFormat, rfl⟩
  · exact ⟨.outputFile, rfl⟩
  · exact ⟨.useColors, rfl⟩
  · exact ⟨.quiet, rfl⟩
  · exact ⟨.verbose, rfl⟩
  · exact ⟨.parallel, rfl⟩
  · exact ⟨.externalLimit, rfl⟩
  · exact ⟨.extraStdlib, rfl⟩
  · exact ⟨.excludePatterns, rfl⟩
  · exact ⟨.skipInvalid, rfl⟩
  · cases h

/-- Members with different names give the settings with these names, and the others stay as they
are. -/
theorem get_foldlM_withMember {ms : Toml.Members} {layer layer' : SettingsLayer}
    (h : ms.foldlM (fun layer m => layer.withMember m.1 m.2) layer = some layer')
    (hms : (ms.map Prod.fst).Nodup) (f : Setting) :
    (lookupEntry f.memberName ms = none ∧ layer'.get f = layer.get f) ∨
      ∃ v x, lookupEntry f.memberName ms = some v ∧ f.readMember? v = some x ∧
        layer'.get f = some x := by
  induction ms generalizing layer with
  | nil =>
      cases h
      exact Or.inl ⟨rfl, rfl⟩
  | cons m ms ih =>
      rw [List.foldlM_cons, Option.bind_eq_bind, Option.bind_eq_some_iff] at h
      obtain ⟨next, hnext, h⟩ := h
      rw [List.map_cons, List.nodup_cons] at hms
      obtain ⟨f₁, hname⟩ := exists_memberName_of_withMember hnext
      rw [hname, withMember_memberName, Option.map_eq_some_iff] at hnext
      obtain ⟨x, hread, rfl⟩ := hnext
      rw [lookupEntry]
      by_cases hf : f = f₁
      · -- the key does not stand among the other members, so its value is kept
        subst hf
        have habsent : lookupEntry f.memberName ms = none :=
          lookupEntry_eq_none_iff.2 (hname ▸ hms.1)
        rcases ih h hms.2 with ⟨-, hkept⟩ | ⟨v, -, hv, -⟩
        · exact Or.inr ⟨m.2, x, if_pos hname, hread, hkept.trans (get_set layer f x)⟩
        · rw [habsent] at hv
          cases hv
      · have hne : m.1 ≠ f.memberName := fun heq =>
          hf (Setting.memberName_injective (heq.symm.trans hname))
        rw [if_neg hne, ← get_set_of_ne layer hf x]
        exact ih h hms.2

/-- What a table gives for a setting is what its key says. -/
theorem rel_ofToml? {ms : Toml.Members} {layer : SettingsLayer} (h : ofToml? ms = some layer)
    (hms : (ms.map Prod.fst).Nodup) (f : Setting) :
    Option.Rel (fun v x => f.readMember? v = some x) (lookupEntry f.memberName ms)
      (layer.get f) := by
  rcases get_foldlM_withMember h hms f with ⟨hnone, hget⟩ | ⟨v, x, hv, hread, hget⟩
  · rw [hnone, hget, get_empty]
    exact .none
  · rw [hv, hget]
    exact .some hread

/-- A text that has a layer is a table of settings; the check that follows changes nothing. -/
theorem exists_of_parse {path text : String} {layer : SettingsLayer}
    (h : parse path text = .ok layer) :
    ∃ ms, Toml.read text = some ms ∧ ofToml? ms = some layer := by
  rw [parse] at h
  cases hlayer : (Toml.read text).bind ofToml? with
  | none =>
      rw [hlayer] at h
      cases h
  | some found =>
      rw [hlayer] at h
      obtain ⟨-, -, rfl⟩ := exists_of_map_eq_ok h
      exact Option.bind_eq_some_iff.1 hlayer

theorem rel_ofFile {files : FileTree} {path : RawText} {layer : SettingsLayer}
    (h : ofFile files path = .ok layer) (f : Setting) :
    Option.Rel (fun v x => f.readMember? v = some x)
      (((files.readText path).toOption.bind Toml.read).bind (lookupEntry f.memberName))
      (layer.get f) := by
  rw [ofFile] at h
  split at h
  · cases h
  · cases htext : files.readText path with
    | error cause =>
        rw [htext] at h
        cases h
    | ok text =>
        rw [htext] at h
        obtain ⟨ms, htable, hlayer⟩ := exists_of_parse h
        rw [Except.toOption, Option.bind_some, htable, Option.bind_some]
        exact rel_ofToml? hlayer (Toml.nodup_read htable) f

end SettingsLayer

/-- What the settings file of a run gives for a setting is what its key says. -/
theorem rel_fileLayer {found : Surroundings} {config : Option RawText} {layer : SettingsLayer}
    (h : fileLayer found config = .ok layer) (f : Setting) :
    Option.Rel (fun v x => f.readMember? v = some x) (f.member? found config) (layer.get f) := by
  rw [Setting.member?, settingsTable?, settingsPath?]
  cases config with
  | some path =>
      rw [fileLayer, SettingsFile.load] at h
      split at h
      · exact SettingsLayer.rel_ofFile h f
      · cases h
  | none =>
      rw [fileLayer, findDefaultSettings] at h
      rw [Option.none_or]
      cases hpath : found.directories.settingsPaths.find? found.files.isFile with
      | none =>
          rw [hpath] at h
          cases h
          exact SettingsLayer.get_empty f ▸ .none
      | some path =>
          rw [hpath] at h
          obtain ⟨layer?, hlayer?, rfl⟩ := exists_of_map_eq_ok h
          obtain ⟨first, hfile, rfl⟩ := exists_of_map_eq_ok hlayer?
          exact SettingsLayer.rel_ofFile hfile f

/-! ### Runs -/

/-- The layers of a run that has settings: the file's and the environment's. -/
theorem exists_layers_of_loadSettings {found : Surroundings} {stem : String} {a : Arguments}
    {s : Settings} (h : loadSettings found stem a = .ok s) :
    ∃ lower upper, fileLayer found a.config = .ok lower ∧
      (EnvironmentSettings.ofStem stem).load found.vars = .ok upper ∧
      s = ((lower.mergeWith upper).mergeWith a.layer).toSettings := by
  obtain ⟨layer, hlayer, h⟩ := exists_of_bind_eq_ok h
  obtain ⟨-, -, rfl⟩ := exists_of_map_eq_ok h
  obtain ⟨lower, hlower, hlayer⟩ := exists_of_bind_eq_ok hlayer
  obtain ⟨middle, hmiddle, hlayer⟩ := exists_of_bind_eq_ok hlayer
  cases hlayer
  rw [EnvironmentSettings.loadOver_eq] at hmiddle
  obtain ⟨upper, hupper, rfl⟩ := exists_of_map_eq_ok hmiddle
  exact ⟨lower, upper, hlower, hupper, rfl⟩

/-- **Every setting comes from the source that goes first.**  Of layers merged in order the last one
that gives a setting counts, and where none does, the default.  In a run the command line goes
before the environment, the environment before the settings file, and the file before the defaults.
It makes no difference that the environment is passed over when none of its variables is set: it
gives nothing then. -/
theorem settings_follow_precedence :
    (∀ (layers : List SettingsLayer) (f : Setting),
      (layers.foldl SettingsLayer.mergeWith .empty).get f =
          (layers.filterMap (·.get f)).getLast? ∧
        (layers.foldl SettingsLayer.mergeWith .empty).toSettings.get f =
          (layers.filterMap (·.get f)).getLast?.or f.default) ∧
    (∀ (found : Surroundings) (stem : String) (a : Arguments) (s : Settings),
      loadSettings found stem a = .ok s →
        ∃ fromVariable fromFile : (f : Setting) → Option f.Value, ∀ f,
          Option.Rel (fun text x => f.readVariable? text = some x)
            (f.variableText? stem found.vars) (fromVariable f) ∧
          Option.Rel (fun v x => f.readMember? v = some x) (f.member? found a.config)
            (fromFile f) ∧
          s.get f = (a.given f).or ((fromVariable f).or ((fromFile f).or f.default))) ∧
    ∀ (stem : String) (vars : Environment),
      ((∀ key ∈ EnvironmentSettings.keys, vars.get? (stem ++ "_" ++ key) = none) →
        (EnvironmentSettings.ofStem stem).load vars = .ok .empty) ∧
      ∀ layer, (EnvironmentSettings.ofStem stem).loadOver vars layer =
        ((EnvironmentSettings.ofStem stem).load vars).map layer.mergeWith := by
  refine ⟨fun layers f => ?_, fun found stem a s h => ?_, fun stem vars => ?_⟩
  · have hlast := SettingsLayer.get_foldl_mergeWith layers f
    exact ⟨hlast, by rw [SettingsLayer.get_toSettings, hlast]⟩
  · obtain ⟨lower, upper, hlower, hupper, rfl⟩ := exists_layers_of_loadSettings h
    refine ⟨upper.get, lower.get, fun f => ⟨EnvironmentSettings.rel_load hupper f,
      rel_fileLayer hlower f, ?_⟩⟩
    rw [SettingsLayer.get_toSettings, SettingsLayer.get_mergeWith, SettingsLayer.get_mergeWith,
      Arguments.get_layer, Option.or_assoc, Option.or_assoc]
  · exact ⟨EnvironmentSettings.load_of_unset, EnvironmentSettings.loadOver_eq⟩

/-- A run in which each source goes first for some setting: the command line for the colours and the
format, the environment for the limit, the file for being quiet.  The file stands in the user's own
directory, which no variable names. -/
theorem settings_follow_precedence_of_four_sources :
    let text := "show_external_limit = 3\nquiet = true\nuse_colors = true\n"
    let files : FileTree := ⟨[], .free,
      [(["home"], .directory .free), (["home", ".modgraph.toml"], .file 0)],
      [(0, .ofBytes (RawText.ofText text).bytes)]⟩
    let vars : Environment := [("APP_EXTERNAL_LIMIT", " 5 "), ("APP_COLORS", "Yes")]
    let found : Surroundings := ⟨files, vars, ⟨some "/home", none⟩, fun _ => "now", none, none⟩
    let a : Arguments := { Arguments.empty with output := some .json, noColors := true }
    let s : Settings := ⟨[], .json, none, false, true, false, true, 5, ⟨[], [], false⟩⟩
    loadSettings found "APP" a = .ok s ∧
      (∃ fromVariable fromFile : (f : Setting) → Option f.Value, ∀ f,
        Option.Rel (fun text x => f.readVariable? text = some x)
          (f.variableText? "APP" found.vars) (fromVariable f) ∧
        Option.Rel (fun v x => f.readMember? v = some x) (f.member? found a.config)
          (fromFile f) ∧
        s.get f = (a.given f).or ((fromVariable f).or ((fromFile f).or f.default))) ∧
      (∀ key ∈ EnvironmentSettings.keys, vars.get? ("OTHER" ++ "_" ++ key) = none) ∧
      (EnvironmentSettings.ofStem "OTHER").load vars = .ok .empty := by
  intro text files vars found a s
  have hload : loadSettings found "APP" a = .ok s := by
    have hsome : (loadSettings found "APP" a).toOption = some s := by decide +kernel
    cases h : loadSettings found "APP" a with
    | error fault =>
        rw [h] at hsome
        cases hsome
    | ok loaded =>
        rw [h] at hsome
        exact congrArg Except.ok (Option.some.inj hsome)
  have hunset : ∀ key ∈ EnvironmentSettings.keys, vars.get? ("OTHER" ++ "_" ++ key) = none := by
    decide +kernel
  exact ⟨hload, settings_follow_precedence.2.1 found "APP" a s hload, hunset,
    (settings_follow_precedence.2.2 "OTHER" vars).1 hunset⟩

end ModuleDeps
