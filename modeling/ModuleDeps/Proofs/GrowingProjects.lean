/-
One more module in a project.

A module that is appended to a list brings its full name and every end of it.  Any of these could
take over a spelling that stood for another module, or change where a name lives.  It turns out that
little can change.  More modules only make more names overlap one, so that an external name may
become internal and nothing else.  In the table of spellings the new full name takes its place
whatever stood there, but its shorter spellings only count where there was nothing.  So a record
that pointed at a module goes on doing so, unless its name is just that of the new module.

Main definitions:

* `ModuleDeps.ImportRecord.Follows` — how a record may change when a module joins the project.

Main results:

* `ModuleDeps.Classifier.classify_of_subset` — more modules only turn external names internal;
* `ModuleDeps.Project.canonical?_eq_none_of_external` — the table does not know external names;
* `ModuleDeps.Project.process_follows_concat` — **records are stable under one more module**.
-/

import Mathlib.Data.List.Forall2
import ModuleDeps.Proofs.InternalNames
import ModuleDeps.Proofs.PartialResults

set_option relaxedAutoImplicit false
set_option autoImplicit false

namespace ModuleDeps

/-! ### Kinds -/

/-- With more modules a name keeps its kind, or turns from external to internal. -/
theorem Classifier.classify_of_subset (classifier : Classifier) {few more : List String}
    (h : few ⊆ more) (name : String) :
    classifier.classify more name = classifier.classify few name ∨
      classifier.classify few name = .external ∧ classifier.classify more name = .internal := by
  cases hstd : classifier.isStdlib
      ((Dotted.segments name).head (Dotted.segments_ne_nil name)) with
  | true =>
      left
      rw [(classify_eq_stdlib_iff classifier).2 hstd, (classify_eq_stdlib_iff classifier).2 hstd]
  | false =>
      by_cases hfew : ∃ m ∈ few, Dotted.Overlaps name m
      · have hmore : ∃ m ∈ more, Dotted.Overlaps name m := by
          obtain ⟨m, hm, hoverlap⟩ := hfew
          exact ⟨m, h hm, hoverlap⟩
        left
        rw [(classify_eq_internal_iff classifier hstd).2 hfew,
          (classify_eq_internal_iff classifier hstd).2 hmore]
      · have hexternal := (classify_eq_external_iff classifier).2 ⟨hstd, hfew⟩
        by_cases hmore : ∃ m ∈ more, Dotted.Overlaps name m
        · exact Or.inr ⟨hexternal, (classify_eq_internal_iff classifier hstd).2 hmore⟩
        · left
          rw [hexternal, (classify_eq_external_iff classifier).2 ⟨hstd, hmore⟩]

/-! ### Records -/

/-- The record `new` is what has become of the record `old` now that the module `added` has joined
the project. -/
structure ImportRecord.Follows (added : String) (old new : ImportRecord) : Prop where
  name : new.name = old.name
  items : new.items = old.items
  form : new.form = old.form
  source : new.source = old.source
  statement : new.statement = old.statement
  /-- The standard library stays where it is. -/
  stdlib : old.kind = .stdlib → new.kind = .stdlib
  /-- Internal names stay internal. -/
  internal : old.kind = .internal → new.kind = .internal
  /-- A kind changes in one way only. -/
  changed : new.kind ≠ old.kind → old.kind = .external ∧ new.kind = .internal
  /-- The record points where it did, unless its name is that of the new module. -/
  resolved : ∀ full, old.resolved = some full →
    new.resolved = some (if old.name = added then added else full)
  /-- A record that pointed at no module can only come to point at the new one. -/
  unresolved : old.resolved = none → new.resolved = none ∨ new.resolved = some added

namespace Project

variable {classifier : Classifier} {modules : List SourceModule}

theorem internal_ofModules_concat (classifier : Classifier) (modules : List SourceModule)
    {m : SourceModule} (hvalid : m.isValid = true) :
    (ofModules classifier (modules ++ [m])).internal =
      (ofModules classifier modules).internal ++ [m.name] := by
  simp [ofModules, hvalid]

/-- The table does not know a name that is external. -/
theorem canonical?_eq_none_of_external {name : String}
    (h : classifier.classify (ofModules classifier modules).internal name = .external) :
    (ofModules classifier modules).spellings.canonical? name = none := by
  by_contra hknown
  rw [spellings_ofModules] at hknown
  obtain ⟨full, hfull, hsuffix⟩ := Dotted.Spellings.canonical?_ne_none_iff.1 hknown
  exact ((Classifier.classify_eq_external_iff classifier).1 h).2
    ⟨full, hfull, Or.inl (Or.inr hsuffix)⟩

/-- What the name of the new module and any other name stand for, with one more module. -/
theorem canonical?_ofModules_concat (modules : List SourceModule) {m : SourceModule}
    (hvalid : m.isValid = true) (name : String) :
    (ofModules classifier (modules ++ [m])).spellings.canonical? name =
      if m.name = name then some m.name
      else ((ofModules classifier modules).spellings.canonical? name).or
        (if name ∈ Dotted.shortSpellings (Dotted.segments m.name) then some m.name else none) := by
  rw [spellings_ofModules, internal_ofModules_concat classifier modules hvalid,
    Dotted.Spellings.canonical?_ofNames_concat]
  rfl

theorem kind_settle (project : Project) (record : ImportRecord) :
    (project.settle record).kind =
      project.classifier.classify project.internal (absoluteName record) := by
  rw [settle]

/-- A record that has just been read points at a module only if it is internal. -/
theorem resolved_settle (project : Project) {record : ImportRecord}
    (hnew : record.resolved = none) :
    (project.settle record).resolved = if (project.settle record).kind = .internal then
      project.spellings.canonical? (absoluteName record) else none := by
  rw [settle, hnew]

section Concat

variable {m : SourceModule} (hvalid : m.isValid = true) {record : ImportRecord}
include hvalid

/-- With one more module a record keeps its kind, or turns from external to internal. -/
theorem kind_settle_concat :
    ((ofModules classifier (modules ++ [m])).settle record).kind =
        ((ofModules classifier modules).settle record).kind ∨
      ((ofModules classifier modules).settle record).kind = .external ∧
        ((ofModules classifier (modules ++ [m])).settle record).kind = .internal := by
  rw [kind_settle, kind_settle, internal_ofModules_concat classifier modules hvalid]
  exact classifier.classify_of_subset (List.subset_append_left _ _) (absoluteName record)

theorem kind_settle_concat_of_internal
    (h : ((ofModules classifier modules).settle record).kind = .internal) :
    ((ofModules classifier (modules ++ [m])).settle record).kind = .internal := by
  rcases kind_settle_concat hvalid with heq | ⟨-, hinternal⟩
  · rw [heq, h]
  · exact hinternal

/-- A record that points at a module is internal and stays so, and the table still knows its
name. -/
theorem resolved_settle_concat (hnew : record.resolved = none) {full : String}
    (h : ((ofModules classifier modules).settle record).resolved = some full) :
    ((ofModules classifier (modules ++ [m])).settle record).resolved =
      some (if absoluteName record = m.name then m.name else full) := by
  rw [resolved_settle _ hnew] at h
  by_cases hi : ((ofModules classifier modules).settle record).kind = .internal
  · rw [if_pos hi] at h
    rw [resolved_settle _ hnew, if_pos (kind_settle_concat_of_internal hvalid hi),
      canonical?_ofModules_concat modules hvalid, h, Option.some_or]
    by_cases hname : m.name = absoluteName record
    · rw [if_pos hname, if_pos hname.symm]
    · rw [if_neg hname, if_neg fun heq => hname heq.symm]
  · rw [if_neg hi] at h
    cases h

/-- A record that points at no module has a name that the table did not know, so that only the new
module can have it. -/
theorem resolved_settle_concat_of_none (hnew : record.resolved = none)
    (h : ((ofModules classifier modules).settle record).resolved = none) :
    ((ofModules classifier (modules ++ [m])).settle record).resolved = none ∨
      ((ofModules classifier (modules ++ [m])).settle record).resolved = some m.name := by
  rw [resolved_settle _ hnew] at h ⊢
  by_cases hi : ((ofModules classifier (modules ++ [m])).settle record).kind = .internal
  · have hunknown :
        (ofModules classifier modules).spellings.canonical? (absoluteName record) = none := by
      rcases kind_settle_concat hvalid with heq | ⟨hexternal, -⟩
      · rw [← heq, if_pos hi] at h
        exact h
      · rw [kind_settle] at hexternal
        exact canonical?_eq_none_of_external hexternal
    rw [if_pos hi, canonical?_ofModules_concat modules hvalid, hunknown, Option.none_or]
    by_cases hname : m.name = absoluteName record
    · exact Or.inr (if_pos hname)
    · rw [if_neg hname]
      by_cases hshort : absoluteName record ∈ Dotted.shortSpellings (Dotted.segments m.name)
      · exact Or.inr (if_pos hshort)
      · exact Or.inl (if_neg hshort)
  · exact Or.inl (if_neg hi)

/-- A record that has just been read is settled in the same way with one more module, but for the
changes that are allowed. -/
theorem settle_follows_concat (hnew : record.resolved = none) :
    ((ofModules classifier modules).settle record).Follows m.name
      ((ofModules classifier (modules ++ [m])).settle record) where
  name := rfl
  items := rfl
  form := rfl
  source := rfl
  statement := rfl
  stdlib := by
    intro h
    rcases kind_settle_concat hvalid with heq | ⟨hexternal, -⟩
    · rw [heq, h]
    · rw [h] at hexternal
      cases hexternal
  internal := kind_settle_concat_of_internal hvalid
  changed := (kind_settle_concat hvalid).resolve_left
  resolved := fun _ h => resolved_settle_concat hvalid hnew h
  unresolved := resolved_settle_concat_of_none hvalid hnew

end Concat

/-- **Records are stable under one more module.**  Let a module that passes its check be appended to
a list.  Then the records of every statement, in any module, correspond one by one.  They keep their
names, items and forms.  Standard library stays standard library and internal stays internal; only
an external record may become internal.  A record that pointed at a module points at the same one,
unless its name is that of the new module, and then it points at the new module. -/
theorem process_follows_concat (classifier : Classifier) (modules : List SourceModule)
    (m : SourceModule) (hcheck : m.check = .ok ()) (statement source : String) :
    List.Forall₂ (ImportRecord.Follows m.name)
      ((ofModules classifier modules).process statement source)
      ((ofModules classifier (modules ++ [m])).process statement source) := by
  rw [process, process, List.forall₂_map_left_iff, List.forall₂_map_right_iff, List.forall₂_same]
  intro record hrecord
  obtain ⟨-, absolute, text, items, -, hnew⟩ := Import.exists_newRecord_of_mem_parse hrecord
  have hnone : record.resolved = none := by
    rw [hnew]
    rfl
  exact settle_follows_concat (SourceModule.isValid_iff_check.2 hcheck) hnone

/-- A module takes over its full name, which was a spelling of a longer one, and leaves it the
spelling that both could have. -/
theorem process_follows_shorter_name :
    let modules : List SourceModule := [⟨"src.app.util", "", []⟩]
    let m : SourceModule := ⟨"app.util", "", []⟩
    let old := (ofModules ⟨[]⟩ modules).process "import app.util, util" "main"
    let new := (ofModules ⟨[]⟩ (modules ++ [m])).process "import app.util, util" "main"
    m.check = .ok () ∧ List.Forall₂ (ImportRecord.Follows m.name) old new ∧
    old.map (·.resolved) = [some "src.app.util", some "src.app.util"] ∧
    new.map (·.resolved) = [some "app.util", some "src.app.util"] := by
  intro modules m old new
  have hcheck : m.check = .ok () := by
    decide
  have hparse : Import.parse "import app.util, util" "main" =
      ["app.util", "util"].map fun name =>
        Import.newRecord .module "main" "import app.util, util" name [] := by
    decide
  refine ⟨hcheck, process_follows_concat ⟨[]⟩ modules m hcheck "import app.util, util" "main", ?_,
    ?_⟩
  · simp only [old, process, hparse, List.map_cons, List.map_nil, settle, spellings_ofModules,
      Dotted.Spellings.canonical?_ofNames_eq]
    decide
  · simp only [new, process, hparse, List.map_cons, List.map_nil, settle, spellings_ofModules,
      Dotted.Spellings.canonical?_ofNames_eq]
    decide

end Project

end ModuleDeps
