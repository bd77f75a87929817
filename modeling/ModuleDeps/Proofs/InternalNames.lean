/-
Internal names and the modules that they stand for.

Two parts decide about an imported name, and they compare it with the modules of the project in ways
of their own.  The classifier says whether the name is internal, and is generous about it: the name
may be the beginning or the end of a module, or a module the beginning or the end of the name.  The
table of spellings says which module the name stands for, and it knows only the ends of modules.

They agree nevertheless.  A name that the table knows is internal, unless its first segment is
standard library, and its record points at a module that ends in the name.  A name that the table
does not know points at no module, and it is internal only for an overlap of the other sorts.

Main definitions:

* `ModuleDeps.Dotted.Overlaps` — the segments of one name are the beginning or the end of those of
  the other.

Main results:

* `ModuleDeps.Classifier.classify_eq_internal_iff` — the internal names are those that overlap a
  module, unless the standard library takes precedence;
* `ModuleDeps.Classifier.classify_eq_stdlib_iff`, `ModuleDeps.Classifier.classify_eq_external_iff` —
  the names of the other kinds;
* `ModuleDeps.Classifier.classify_by_segments` — **kinds are decided by segments**;
* `ModuleDeps.Project.kind_agrees_with_spellings` — **the classifier and the table agree**;
* `ModuleDeps.Project.settle_of_mem_internal` — an absolute record with the name of a module points
  at this module.
-/

import ModuleDeps.Graph.Builder
import ModuleDeps.Proofs.GraphImage
import ModuleDeps.Proofs.ImportReading
import ModuleDeps.Proofs.Spellings

set_option relaxedAutoImplicit false
set_option autoImplicit false

namespace ModuleDeps

/-! ### Kinds -/

/-- The segments of one name are the beginning or the end of the segments of the other. -/
def Dotted.Overlaps (name other : String) : Prop :=
  (segments name <+: segments other ∨ segments name <:+ segments other) ∨
    (segments other <+: segments name ∨ segments other <:+ segments name)

theorem isInside_iff {child parent : String} :
    isInside child parent = true ↔ ∃ back, child = parent ++ "." ++ back := by
  rw [isInside, List.isPrefixOf_iff_prefix]
  constructor
  · rintro ⟨back, hback⟩
    refine ⟨String.ofList back, String.toList_inj.1 ?_⟩
    rw [Dotted.toList_append_dot, String.toList_ofList, ← hback, List.append_assoc,
      List.singleton_append]
  · rintro ⟨back, rfl⟩
    rw [Dotted.toList_append_dot]
    exact ⟨back.toList, by simp⟩

namespace Classifier

variable (classifier : Classifier) {internal : List String} {name : String}

theorem isStdlib_iff {topLevel : String} :
    classifier.isStdlib topLevel = true ↔
      topLevel ∈ StandardLibrary.names ∨ topLevel ∈ classifier.extraStdlib := by
  simp [isStdlib, StandardLibrary.holds]

theorem matchesRule_stdlibTopLevel (internal : List String) (name : String) :
    classifier.matchesRule internal name .stdlibTopLevel =
      classifier.isStdlib ((Dotted.segments name).head (Dotted.segments_ne_nil name)) := by
  rw [matchesRule, List.headD_eq_head?_getD,
    List.head?_eq_some_head (Dotted.segments_ne_nil name), Option.getD_some]

/-- The rules for internal names together match the names that overlap a module. -/
theorem exists_internal_rule_iff :
    (∃ rule, rule ≠ .stdlibTopLevel ∧ classifier.matchesRule internal name rule = true) ↔
      ∃ m ∈ internal, Dotted.Overlaps name m := by
  constructor
  · rintro ⟨rule, hrule, hmatch⟩
    cases rule with
    | stdlibTopLevel => exact absurd rfl hrule
    | exactInternal =>
        exact ⟨name, List.contains_iff_mem.1 hmatch, Or.inl (Or.inl (List.prefix_refl _))⟩
    | packageOfInternal =>
        obtain ⟨m, hm, hinside⟩ := List.any_eq_true.1 hmatch
        obtain ⟨back, rfl⟩ := isInside_iff.1 hinside
        exact ⟨_, hm, Or.inl (Or.inl (Dotted.segments_prefix_iff.2 (Or.inr ⟨back, rfl⟩)))⟩
    | submoduleOfInternal =>
        obtain ⟨m, hm, hinside⟩ := List.any_eq_true.1 hmatch
        obtain ⟨back, rfl⟩ := isInside_iff.1 hinside
        exact ⟨m, hm, Or.inr (Or.inl (Dotted.segments_prefix_iff.2 (Or.inr ⟨back, rfl⟩)))⟩
    | segmentSuffix =>
        obtain ⟨m, hm, hsuffix⟩ := List.any_eq_true.1 hmatch
        rw [Bool.or_eq_true, List.isSuffixOf_iff_suffix, List.isSuffixOf_iff_suffix] at hsuffix
        rcases hsuffix with h | h
        · exact ⟨m, hm, Or.inl (Or.inr h)⟩
        · exact ⟨m, hm, Or.inr (Or.inr h)⟩
  · rintro ⟨m, hm, hoverlap⟩
    have hexact : m = name → classifier.matchesRule internal name .exactInternal = true := by
      rintro rfl
      exact List.contains_iff_mem.2 hm
    have hsuffix : Dotted.segments name <:+ Dotted.segments m ∨
        Dotted.segments m <:+ Dotted.segments name →
        classifier.matchesRule internal name .segmentSuffix = true := by
      intro h
      refine List.any_eq_true.2 ⟨m, hm, ?_⟩
      rwa [Bool.or_eq_true, List.isSuffixOf_iff_suffix, List.isSuffixOf_iff_suffix]
    -- a beginning that is not the whole name is followed by a dot
    rcases hoverlap with (h | h) | (h | h)
    · rcases Dotted.segments_prefix_iff.1 h with heq | hback
      · exact ⟨.exactInternal, by decide, hexact heq⟩
      · exact ⟨.packageOfInternal, by decide,
          List.any_eq_true.2 ⟨m, hm, isInside_iff.2 hback⟩⟩
    · exact ⟨.segmentSuffix, by decide, hsuffix (Or.inl h)⟩
    · rcases Dotted.segments_prefix_iff.1 h with heq | hback
      · exact ⟨.exactInternal, by decide, hexact heq.symm⟩
      · exact ⟨.submoduleOfInternal, by decide,
          List.any_eq_true.2 ⟨m, hm, isInside_iff.2 hback⟩⟩
    · exact ⟨.segmentSuffix, by decide, hsuffix (Or.inr h)⟩

/-- The internal names are those that overlap a module, if the standard library does not have their
first segment. -/
theorem classify_eq_internal_iff (hstd : classifier.isStdlib
      ((Dotted.segments name).head (Dotted.segments_ne_nil name)) = false) :
    classifier.classify internal name = .internal ↔
      ∃ m ∈ internal, Dotted.Overlaps name m := by
  rw [← exists_internal_rule_iff classifier]
  rw [← matchesRule_stdlibTopLevel classifier internal] at hstd
  have horder : ∀ rule, rule ∈ Rule.order := by
    intro rule
    cases rule <;> decide
  rw [classify]
  cases hrule : classifier.rule? internal name with
  | none =>
      simp only [Option.map_none, Option.getD_none, reduceCtorEq, false_iff]
      rintro ⟨rule, -, hmatch⟩
      exact List.find?_eq_none.1 hrule rule (horder rule) hmatch
  | some rule =>
      have hmatch : classifier.matchesRule internal name rule = true := List.find?_some hrule
      have hne : rule ≠ .stdlibTopLevel := by
        rintro rfl
        rw [hstd] at hmatch
        exact absurd hmatch (by decide)
      have hkind : rule.kind = .internal := by
        cases rule with
        | stdlibTopLevel => exact absurd rfl hne
        | exactInternal => rfl
        | packageOfInternal => rfl
        | submoduleOfInternal => rfl
        | segmentSuffix => rfl
      rw [Option.map_some, Option.getD_some, hkind]
      exact ⟨fun _ => ⟨rule, hne, hmatch⟩, fun _ => rfl⟩

/-- The names of the standard library are told by their first segment, whatever the modules are. -/
theorem classify_eq_stdlib_iff :
    classifier.classify internal name = .stdlib ↔ classifier.isStdlib
      ((Dotted.segments name).head (Dotted.segments_ne_nil name)) = true := by
  rw [← matchesRule_stdlibTopLevel classifier internal, classify]
  constructor
  · intro h
    cases hrule : classifier.rule? internal name with
    | none =>
        rw [hrule] at h
        cases h
    | some rule =>
        have hmatch : classifier.matchesRule internal name rule = true := List.find?_some hrule
        rw [hrule] at h
        cases rule with
        | stdlibTopLevel => exact hmatch
        | exactInternal => cases h
        | packageOfInternal => cases h
        | submoduleOfInternal => cases h
        | segmentSuffix => cases h
  · intro h
    rw [rule?, Rule.order, List.find?_cons_of_pos h]
    rfl

/-- The external names are those that are neither standard library nor overlap a module. -/
theorem classify_eq_external_iff :
    classifier.classify internal name = .external ↔ classifier.isStdlib
      ((Dotted.segments name).head (Dotted.segments_ne_nil name)) = false ∧
      ¬ ∃ m ∈ internal, Dotted.Overlaps name m := by
  constructor
  · intro h
    have hstd : classifier.isStdlib
        ((Dotted.segments name).head (Dotted.segments_ne_nil name)) = false := by
      rw [← Bool.not_eq_true]
      intro hstd
      rw [(classify_eq_stdlib_iff classifier).2 hstd] at h
      cases h
    refine ⟨hstd, fun hoverlap => ?_⟩
    rw [(classify_eq_internal_iff classifier hstd).2 hoverlap] at h
    cases h
  · rintro ⟨hstd, hoverlap⟩
    rw [classify]
    cases hrule : classifier.rule? internal name with
    | none => rfl
    | some rule =>
        have hmatch : classifier.matchesRule internal name rule = true := List.find?_some hrule
        by_cases hne : rule = .stdlibTopLevel
        · rw [hne, matchesRule_stdlibTopLevel, hstd] at hmatch
          cases hmatch
        · exact absurd ((exists_internal_rule_iff classifier).1 ⟨rule, hne, hmatch⟩) hoverlap

/-- **Kinds are decided by segments.**  Whatever the name, the modules and the further names of the
standard library are, a name is standard library exactly if its first segment is a built-in or a
further name.  Otherwise it is internal exactly if its segments are the beginning or the end of the
segments of a module, or the other way round, and external if they are neither.  There is no other
kind. -/
theorem classify_by_segments (internal : List String) (name : String) :
    let top := (Dotted.segments name).head (Dotted.segments_ne_nil name)
    let isLibrary := top ∈ StandardLibrary.names ∨ top ∈ classifier.extraStdlib
    let overlaps := ∃ m ∈ internal,
      (Dotted.segments name <+: Dotted.segments m ∨ Dotted.segments name <:+ Dotted.segments m) ∨
        (Dotted.segments m <+: Dotted.segments name ∨ Dotted.segments m <:+ Dotted.segments name)
    (classifier.classify internal name = .stdlib ↔ isLibrary) ∧
    (classifier.classify internal name = .internal ↔ ¬ isLibrary ∧ overlaps) ∧
    (classifier.classify internal name = .external ↔ ¬ isLibrary ∧ ¬ overlaps) ∧
    classifier.classify internal name ≠ .unknown := by
  intro top isLibrary overlaps
  have hstd : classifier.classify internal name = .stdlib ↔ isLibrary :=
    (classify_eq_stdlib_iff classifier).trans (isStdlib_iff classifier)
  have hother : classifier.isStdlib top = false ↔ ¬ isLibrary := by
    rw [← Bool.not_eq_true, isStdlib_iff]
  refine ⟨hstd, ⟨fun h => ?_, fun h => ?_⟩, ?_, classify_ne_unknown classifier internal name⟩
  · -- a name has one kind only
    have hnot : ¬ isLibrary := fun hlib => by
      rw [hstd.2 hlib] at h
      cases h
    exact ⟨hnot, (classify_eq_internal_iff classifier (hother.2 hnot)).1 h⟩
  · exact (classify_eq_internal_iff classifier (hother.2 h.1)).2 h.2
  · rw [← hother]
    exact classify_eq_external_iff classifier

end Classifier

/-! ### Records -/

namespace Project

variable {classifier : Classifier} {modules : List SourceModule}

theorem spellings_ofModules (classifier : Classifier) (modules : List SourceModule) :
    (ofModules classifier modules).spellings = .ofNames (ofModules classifier modules).internal :=
  rfl

theorem mem_internal_ofModules_iff {name : String} :
    name ∈ (ofModules classifier modules).internal ↔
      ∃ m ∈ modules, m.isValid = true ∧ m.name = name := by
  rw [ofModules, List.mem_map]
  constructor
  · rintro ⟨m, hm, rfl⟩
    obtain ⟨hmem, hvalid⟩ := List.mem_filter.1 hm
    exact ⟨m, hmem, hvalid, rfl⟩
  · rintro ⟨m, hmem, hvalid, rfl⟩
    exact ⟨m, List.mem_filter.2 ⟨hmem, hvalid⟩, rfl⟩

theorem mem_internal_ofModules {m : SourceModule} (hm : m ∈ modules) (hvalid : m.isValid = true) :
    m.name ∈ (ofModules classifier modules).internal :=
  mem_internal_ofModules_iff.2 ⟨m, hm, hvalid, rfl⟩

/-- The name of a record decides its kind and, if it is internal, what it points at. -/
theorem kind_and_resolved_of_mem_process {project : Project} {statement source : String}
    {r : ImportRecord} (hr : r ∈ project.process statement source) :
    r.kind = project.classifier.classify project.internal r.name ∧
      r.resolved =
        if r.kind = .internal then project.spellings.canonical? r.name else none := by
  obtain ⟨parsed, hparsed, rfl⟩ := List.mem_map.1 hr
  obtain ⟨-, absolute, text, items, -, hnew⟩ := Import.exists_newRecord_of_mem_parse hparsed
  have hnone : parsed.resolved = none := by
    rw [hnew]
    rfl
  refine ⟨rfl, ?_⟩
  rw [settle, hnone]

/-- The table knows the names in which a module ends, and no others. -/
theorem canonical?_ne_none_iff {name : String} :
    (ofModules classifier modules).spellings.canonical? name ≠ none ↔
      ∃ m ∈ modules, m.isValid = true ∧ Dotted.segments name <:+ Dotted.segments m.name := by
  rw [spellings_ofModules, Dotted.Spellings.canonical?_ne_none_iff]
  constructor
  · rintro ⟨full, hfull, hsuffix⟩
    obtain ⟨m, hm, hvalid, rfl⟩ := mem_internal_ofModules_iff.1 hfull
    exact ⟨m, hm, hvalid, hsuffix⟩
  · rintro ⟨m, hm, hvalid, hsuffix⟩
    exact ⟨m.name, mem_internal_ofModules hm hvalid, hsuffix⟩

/-- A record with a name that the table knows is internal and points at a module that ends in the
name. -/
theorem internal_of_known {statement source : String} {r : ImportRecord}
    (hr : r ∈ (ofModules classifier modules).process statement source)
    (hstd : classifier.isStdlib
      ((Dotted.segments r.name).head (Dotted.segments_ne_nil r.name)) = false)
    (hknown : (ofModules classifier modules).spellings.canonical? r.name ≠ none) :
    r.kind = .internal ∧ ∃ m ∈ modules, m.isValid = true ∧ r.resolved = some m.name ∧
      Dotted.segments r.name <:+ Dotted.segments m.name := by
  obtain ⟨hkind, hresolved⟩ := kind_and_resolved_of_mem_process hr
  obtain ⟨full, hfull⟩ := Option.ne_none_iff_exists'.1 hknown
  rw [spellings_ofModules] at hfull
  obtain ⟨hmem, hsuffix⟩ := Dotted.Spellings.mem_and_suffix_of_canonical? hfull
  have hinternal : r.kind = .internal := by
    rw [hkind]
    exact (Classifier.classify_eq_internal_iff classifier hstd).2
      ⟨full, hmem, Or.inl (Or.inr hsuffix)⟩
  obtain ⟨m, hm, hvalid, rfl⟩ := mem_internal_ofModules_iff.1 hmem
  refine ⟨hinternal, m, hm, hvalid, ?_, hsuffix⟩
  rw [hresolved, if_pos hinternal, spellings_ofModules, hfull]

/-- A record with a name that the table does not know points at no module, and is internal exactly
for an overlap that is no end of a module. -/
theorem resolved_of_unknown {statement source : String} {r : ImportRecord}
    (hr : r ∈ (ofModules classifier modules).process statement source)
    (hstd : classifier.isStdlib
      ((Dotted.segments r.name).head (Dotted.segments_ne_nil r.name)) = false)
    (hunknown : (ofModules classifier modules).spellings.canonical? r.name = none) :
    r.resolved = none ∧ (r.kind = .internal ↔ ∃ m ∈ modules, m.isValid = true ∧
      Dotted.segments m.name ≠ Dotted.segments r.name ∧
      (Dotted.segments m.name <+: Dotted.segments r.name ∨
        Dotted.segments m.name <:+ Dotted.segments r.name ∨
        Dotted.segments r.name <+: Dotted.segments m.name)) := by
  obtain ⟨hkind, hresolved⟩ := kind_and_resolved_of_mem_process hr
  have hnoEnd : ∀ m ∈ modules, m.isValid = true →
      ¬ Dotted.segments r.name <:+ Dotted.segments m.name := by
    intro m hm hvalid hsuffix
    exact canonical?_ne_none_iff.2 ⟨m, hm, hvalid, hsuffix⟩ hunknown
  refine ⟨?_, ?_⟩
  · rw [hresolved, hunknown, ite_self]
  · rw [hkind]
    refine (Classifier.classify_eq_internal_iff classifier hstd).trans ?_
    constructor
    · rintro ⟨full, hfull, hoverlap⟩
      obtain ⟨m, hm, hvalid, rfl⟩ := mem_internal_ofModules_iff.1 hfull
      have hne : Dotted.segments m.name ≠ Dotted.segments r.name := by
        intro heq
        exact hnoEnd m hm hvalid (heq ▸ List.suffix_refl _)
      refine ⟨m, hm, hvalid, hne, ?_⟩
      rcases hoverlap with (h | h) | (h | h)
      · exact Or.inr (Or.inr h)
      · exact absurd h (hnoEnd m hm hvalid)
      · exact Or.inl h
      · exact Or.inr (Or.inl h)
    · rintro ⟨m, hm, hvalid, -, hoverlap⟩
      refine ⟨m.name, mem_internal_ofModules hm hvalid, ?_⟩
      rcases hoverlap with h | h | h
      · exact Or.inr (Or.inl h)
      · exact Or.inr (Or.inr h)
      · exact Or.inl (Or.inl h)

/-- An absolute record with the name of a module points at this module. -/
theorem settle_of_mem_internal {classifier : Classifier} (modules : List SourceModule)
    {record : ImportRecord} (habs : record.isRelative = false)
    (hstd : classifier.isStdlib
      ((Dotted.segments record.name).head (Dotted.segments_ne_nil record.name)) = false)
    (h : record.name ∈ (ofModules classifier modules).internal) :
    ((ofModules classifier modules).settle record).kind = .internal ∧
      ((ofModules classifier modules).settle record).source = record.source ∧
      ((ofModules classifier modules).settle record).target = record.name := by
  have hname : absoluteName record = record.name := by
    rw [absoluteName, habs]
    rfl
  have hkind : (ofModules classifier modules).classifier.classify
      (ofModules classifier modules).internal record.name = .internal :=
    (Classifier.classify_eq_internal_iff classifier hstd).2
      ⟨record.name, h, Or.inl (Or.inl (List.prefix_refl _))⟩
  have hfull : (ofModules classifier modules).spellings.canonical? record.name =
      some record.name := by
    rw [spellings_ofModules, Dotted.Spellings.canonical?_ofNames_eq, if_pos h]
  simp only [settle, hname, hkind, if_true, hfull, ImportRecord.target, Option.getD_some,
    and_self]

/-- **The classifier and the table of spellings agree.**  Take any record of a statement in a
project.  If the standard library does not have the first segment of its name, then either the table
knows the name, because the name is that of an acceptable module or stands behind one of its dots:
then the record is internal and points at such a module.  Or the table does not know it: then the
record points at no module, and it is internal exactly if a module is a proper beginning or a proper
end of the name, or the name a proper beginning of a module.  Records of the other kinds never point
at a module. -/
theorem kind_agrees_with_spellings (classifier : Classifier) (modules : List SourceModule)
    (statement source : String) (r : ImportRecord)
    (hr : r ∈ (ofModules classifier modules).process statement source) :
    let known := (ofModules classifier modules).spellings.canonical? r.name ≠ none
    (known ↔ ∃ m ∈ modules, m.isValid = true ∧
      (m.name = r.name ∨ ∃ front, m.name = front ++ "." ++ r.name)) ∧
    (classifier.isStdlib
        ((Dotted.segments r.name).head (Dotted.segments_ne_nil r.name)) = false →
      (known → r.kind = .internal ∧ ∃ m ∈ modules, m.isValid = true ∧ r.resolved = some m.name ∧
        Dotted.segments r.name <:+ Dotted.segments m.name) ∧
      (¬ known → r.resolved = none ∧ (r.kind = .internal ↔ ∃ m ∈ modules, m.isValid = true ∧
        Dotted.segments m.name ≠ Dotted.segments r.name ∧
        (Dotted.segments m.name <+: Dotted.segments r.name ∨
          Dotted.segments m.name <:+ Dotted.segments r.name ∨
          Dotted.segments r.name <+: Dotted.segments m.name)))) ∧
    (r.kind = .stdlib ∨ r.kind = .external → r.resolved = none) := by
  intro known
  refine ⟨?_, fun hstd => ⟨internal_of_known hr hstd, fun hunknown => ?_⟩, fun hother => ?_⟩
  · simp only [known, canonical?_ne_none_iff, Dotted.segments_suffix_iff]
  · exact resolved_of_unknown hr hstd (not_not.1 hunknown)
  · have hne : r.kind ≠ .internal := by
      rcases hother with h | h
      · simp [h]
      · simp [h]
    rw [(kind_and_resolved_of_mem_process hr).2, if_neg hne]

/-- A short spelling of a module is internal and points at the module, though a module with a flawed
name in front of it ends in the same segment. -/
theorem kind_agrees_on_short_spelling :
    let modules : List SourceModule := [⟨"a..mod", "", []⟩, ⟨"src.pkg.mod", "", []⟩]
    let r : ImportRecord := ⟨"pkg.mod", .internal, .fromImport, "m", "from pkg.mod import x",
      some "src.pkg.mod", ["x"]⟩
    r ∈ (ofModules ⟨[]⟩ modules).process "from pkg.mod import x" "m" ∧
    Classifier.isStdlib ⟨[]⟩
      ((Dotted.segments r.name).head (Dotted.segments_ne_nil r.name)) = false ∧
    (ofModules ⟨[]⟩ modules).spellings.canonical? r.name ≠ none ∧
    r.kind = .internal ∧ ∃ m ∈ modules, m.isValid = true ∧ r.resolved = some m.name ∧
      Dotted.segments r.name <:+ Dotted.segments m.name := by
  intro modules r
  have hr : r ∈ (ofModules ⟨[]⟩ modules).process "from pkg.mod import x" "m" := by
    refine List.mem_map.2
      ⟨Import.newRecord .fromImport "m" "from pkg.mod import x" "pkg.mod" ["x"], by decide, ?_⟩
    rw [settle, spellings_ofModules, Dotted.Spellings.canonical?_ofNames_eq]
    decide
  have hstd : Classifier.isStdlib ⟨[]⟩
      ((Dotted.segments r.name).head (Dotted.segments_ne_nil r.name)) = false := by decide
  have hknown : (ofModules ⟨[]⟩ modules).spellings.canonical? r.name ≠ none := by
    rw [spellings_ofModules, Dotted.Spellings.canonical?_ofNames_eq]
    decide
  exact ⟨hr, hstd, hknown,
    ((kind_agrees_with_spellings ⟨[]⟩ modules _ _ r hr).2.1 hstd).1 hknown⟩

end Project

end ModuleDeps
