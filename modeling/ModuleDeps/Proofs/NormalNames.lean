/-
The names of records are normal.

Three checks stand between a statement and the graph, each written for itself: the reader takes only
paths, the modules of a project have no empty segment in their names, and a relative name is made
absolute only if neither its module nor what follows its dots has an empty segment.  Together they
leave no gap.  A relative path in a module with an acceptable name can always be made absolute, and
what comes out has no dot in front and no empty segment.

The one exception is a path of dots alone that leads out of the outermost package: nothing is left
to name, and the name is empty.

Main definitions:

* `ModuleDeps.Dotted.IsNormal` — no segment of a name is empty.

Main results:

* `ModuleDeps.Dotted.package_eq_take` — the package that some dots mean;
* `ModuleDeps.Dotted.exists_tryResolve_of_path` — the absolute name of a path;
* `ModuleDeps.Project.names_normal_of_process` — **the names of records are normal**.
-/

import Mathlib.Data.List.Forall2
import ModuleDeps.Graph.Builder
import ModuleDeps.Proofs.ImportReading
import ModuleDeps.Proofs.Spellings

set_option relaxedAutoImplicit false
set_option autoImplicit false

namespace ModuleDeps

namespace Dotted

/-! ### Normal names -/

/-- No segment of the name is empty. -/
def IsNormal (name : String) : Prop :=
  ∀ seg ∈ segments name, seg ≠ ""

theorem hasEmptySegment_eq_false_iff {name : String} :
    hasEmptySegment name = false ↔ IsNormal name := by
  simp [hasEmptySegment, IsNormal]

theorem IsNormal.ne_empty {name : String} (h : IsNormal name) : name ≠ "" := by
  rintro rfl
  exact h "" (by decide) rfl

/-- A normal name has no dot in front. -/
theorem IsNormal.head?_ne {name : String} (h : IsNormal name) : name.toList.head? ≠ some '.' := by
  intro hhead
  obtain ⟨rest, hrest⟩ := List.head?_eq_some_iff.1 hhead
  have hname : name = "" ++ "." ++ String.ofList rest := by
    apply String.toList_inj.1
    rw [toList_append_dot, hrest]
    simp
  -- the piece in front of the dot is an empty segment
  refine h "" ?_ rfl
  rw [hname, segments_append]
  exact List.mem_append_left _ (by decide)

/-- Segments of a normal name and further ones that are not empty make a normal name. -/
theorem isNormal_take_append {source : String} (hsource : IsNormal source) (k : Nat)
    {rest : List String} (hdots : ∀ seg ∈ rest, '.' ∉ seg.toList)
    (hrest : ∀ seg ∈ rest, seg ≠ "") (hne : (segments source).take k ++ rest ≠ []) :
    IsNormal (ofSegments ((segments source).take k ++ rest)) := by
  have hcut : ∀ seg ∈ (segments source).take k ++ rest, '.' ∉ seg.toList := by
    intro seg hseg
    rcases List.mem_append.1 hseg with hseg | hseg
    · exact dot_notMem_of_mem_segments (List.mem_of_mem_take hseg)
    · exact hdots seg hseg
  intro seg hseg
  rw [segments_ofSegments hne hcut] at hseg
  rcases List.mem_append.1 hseg with hseg | hseg
  · exact hsource seg (List.mem_of_mem_take hseg)
  · exact hrest seg hseg

/-! ### Dots in front -/

theorem toList_afterDots (name : String) :
    (afterDots name).toList = name.toList.dropWhile (· == '.') :=
  String.toList_ofList

/-- A name is the dots in front of it and the rest. -/
theorem replicate_append_afterDots (name : String) :
    List.replicate (leadingDots name) '.' ++ (afterDots name).toList = name.toList := by
  have hdots : name.toList.takeWhile (· == '.') = List.replicate (leadingDots name) '.' :=
    List.eq_replicate_of_mem fun c hc => by simpa using List.mem_takeWhile_imp hc
  rw [← hdots, toList_afterDots, List.takeWhile_append_dropWhile]

/-- A name is made of at least `k` dots if it has as many in front and nothing behind them. -/
theorem exists_eq_replicate_iff {name : String} {k : Nat} :
    (∃ n, name.toList = List.replicate n '.' ∧ k ≤ n) ↔
      afterDots name = "" ∧ k ≤ leadingDots name := by
  constructor
  · rintro ⟨n, hname, hk⟩
    constructor
    · rw [afterDots, hname]
      simp
    · rw [leadingDots, hname]
      simpa using hk
  · rintro ⟨hrest, hk⟩
    have hname := replicate_append_afterDots name
    rw [hrest, String.toList_empty, List.append_nil] at hname
    exact ⟨leadingDots name, hname.symm, hk⟩

/-- Behind the dots of a path there is a normal name, or nothing, and then there are dots. -/
theorem afterDots_of_path {path : String} (h : Import.Path path.toList) :
    (afterDots path = "" ∧ leadingDots path ≠ 0) ∨ IsNormal (afterDots path) := by
  have hname := replicate_append_afterDots path
  have hpath := Import.isPath_iff.2 h
  rw [Import.isPath] at hpath
  split at hpath
  · next hnil =>
    have hempty : afterDots path = "" := by
      apply String.toList_inj.1
      rw [toList_afterDots, hnil, String.toList_empty]
    refine Or.inl ⟨hempty, fun hzero => h.ne_nil ?_⟩
    rw [← hname, hempty, hzero]
    rfl
  · refine Or.inr fun seg hseg hempty => ?_
    rw [segments, toList_afterDots] at hseg
    obtain ⟨id, hid, rfl⟩ := List.mem_map.1 hseg
    have hident := Import.isIdent_iff.1 (List.all_eq_true.1 hpath id hid)
    have hnil := congrArg String.toList hempty
    rw [String.toList_ofList, String.toList_empty] at hnil
    exact hident.ne_nil hnil

/-! ### Making names absolute -/

/-- Some dots mean the segments of the module without as many at the end. -/
theorem package_eq_take (source : List String) {dots : Nat} (hdots : dots ≠ 0) :
    package source dots = source.take (source.length - dots) := by
  rw [package, List.dropLast_eq_take, List.take_take, List.length_take]
  congr 1
  omega

/-- It makes no difference whether a rest is put behind segments as a whole or segment by
segment. -/
theorem ofSegments_concat (segs : List String) (rest : String) :
    ofSegments (segs ++ [rest]) = ofSegments (segs ++ segments rest) := by
  have hrest : ofSegments [rest] = ofSegments (segments rest) := by
    rw [ofSegments_segments]
    simp [ofSegments]
  by_cases hsegs : segs = []
  · rw [hsegs, List.nil_append, List.nil_append, hrest]
  · rw [ofSegments_append hsegs (List.cons_ne_nil _ _), hrest,
      ofSegments_append hsegs (segments_ne_nil rest)]

/-- A relative name is made absolute in a module with a normal name, unless something is wrong
behind its dots. -/
theorem tryResolve_of_isNormal {name source : String} (hdots : leadingDots name ≠ 0)
    (hsource : IsNormal source) (hrest : afterDots name = "" ∨ IsNormal (afterDots name)) :
    tryResolve name source = .ok (ofSegments
      ((segments source).take ((segments source).length - leadingDots name) ++
        if afterDots name = "" then [] else segments (afterDots name))) := by
  have hsource' : hasEmptySegment source = false := hasEmptySegment_eq_false_iff.2 hsource
  have hflaw : (!(afterDots name).isEmpty && hasEmptySegment (afterDots name)) = false := by
    rcases hrest with hempty | hnormal
    · simp [hempty]
    · simp [hasEmptySegment_eq_false_iff.2 hnormal]
  rw [tryResolve]
  simp only [hdots, if_false, hsource', hflaw, Bool.false_eq_true, package_eq_take _ hdots,
    String.isEmpty_iff]
  by_cases hempty : afterDots name = ""
  · rw [if_pos hempty, if_pos hempty]
  · rw [if_neg hempty, if_neg hempty, ofSegments_concat]

/-- A path of dots alone means a package of its module; the package is empty if there are at least
as many dots as segments. -/
theorem exists_tryResolve_of_dots {path source : String} (hempty : afterDots path = "")
    (hdots : leadingDots path ≠ 0) (hsource : IsNormal source) :
    ∃ name, tryResolve path source = .ok name ∧
      (name = "" ↔ (segments source).length ≤ leadingDots path) ∧
      (name ≠ "" → IsNormal name) := by
  have hresolve := tryResolve_of_isNormal hdots hsource (Or.inl hempty)
  rw [if_pos hempty] at hresolve
  refine ⟨_, hresolve, ?_⟩
  by_cases hle : (segments source).length ≤ leadingDots path
  · have hnone : (segments source).length - leadingDots path = 0 := by omega
    rw [hnone, List.take_zero, List.append_nil]
    exact ⟨⟨fun _ => hle, fun _ => rfl⟩, fun h => absurd rfl h⟩
  · have hlen : 0 < (segments source).length - leadingDots path := by omega
    have hne : (segments source).take ((segments source).length - leadingDots path) ++ [] ≠ [] := by
      intro hnil
      have hzero := congrArg List.length hnil
      simp only [List.append_nil, List.length_take, List.length_nil] at hzero
      omega
    have hnormal := isNormal_take_append hsource _ (by simp) (by simp) hne
    exact ⟨⟨fun h => absurd h hnormal.ne_empty, fun h => absurd h hle⟩, fun _ => hnormal⟩

/-- A path with an identifier has a normal absolute name. -/
theorem exists_tryResolve_of_rest {path source : String} (hrest : IsNormal (afterDots path))
    (hsource : IsNormal source) :
    ∃ name, tryResolve path source = .ok name ∧ IsNormal name := by
  by_cases hdots : leadingDots path = 0
  · -- without dots in front, the path is absolute
    have hpath := replicate_append_afterDots path
    rw [hdots, List.replicate_zero, List.nil_append] at hpath
    rw [String.toList_inj.1 hpath] at hrest
    refine ⟨path, ?_, hrest⟩
    rw [tryResolve]
    simp only [hdots, if_true]
  · have hresolve := tryResolve_of_isNormal hdots hsource (Or.inr hrest)
    rw [if_neg hrest.ne_empty] at hresolve
    refine ⟨_, hresolve, ?_⟩
    apply isNormal_take_append hsource
    · exact fun seg hseg => dot_notMem_of_mem_segments hseg
    · exact hrest
    · exact List.append_ne_nil_of_right_ne_nil _ (segments_ne_nil _)

/-- **The absolute name of a path**: in a module with a normal name there always is one, and it is
normal, unless the path is made of at least as many dots as the module has segments. -/
theorem exists_tryResolve_of_path {path source : String} (hpath : Import.Path path.toList)
    (hsource : IsNormal source) :
    ∃ name, tryResolve path source = .ok name ∧
      (name = "" ↔ ∃ n, path.toList = List.replicate n '.' ∧ (segments source).length ≤ n) ∧
      (name ≠ "" → IsNormal name) := by
  rcases afterDots_of_path hpath with ⟨hempty, hdots⟩ | hrest
  · obtain ⟨name, hresolve, hname, hnormal⟩ := exists_tryResolve_of_dots hempty hdots hsource
    refine ⟨name, hresolve, ?_, hnormal⟩
    rw [hname, exists_eq_replicate_iff]
    exact ⟨fun h => ⟨hempty, h⟩, fun h => h.2⟩
  · obtain ⟨name, hresolve, hnormal⟩ := exists_tryResolve_of_rest hrest hsource
    refine ⟨name, hresolve, ?_, fun _ => hnormal⟩
    rw [exists_eq_replicate_iff]
    exact ⟨fun h => absurd h hnormal.ne_empty, fun h => absurd h.1 hrest.ne_empty⟩

end Dotted

/-! ### Records -/

/-- An acceptable name is normal. -/
theorem SourceModule.isNormal_of_isValid {m : SourceModule} (h : m.isValid = true) :
    Dotted.IsNormal m.name := by
  rw [isValid, flaw?] at h
  split at h
  · simp at h
  · split at h
    · simp at h
    · next hempty => exact Dotted.hasEmptySegment_eq_false_iff.1 (Bool.eq_false_iff.2 hempty)

namespace Project

/-- The absolute name of a new record is what its path is resolved to. -/
theorem absoluteName_newRecord {absolute : ImportForm} (habsolute : absolute ≠ .relative)
    {source path name : String} (h : Dotted.tryResolve path source = .ok name) (text : String)
    (items : List String) :
    absoluteName (Import.newRecord absolute source text path items) = name := by
  by_cases hdot : path.toList.head? = some '.'
  · have hform : (Import.newRecord absolute source text path items).isRelative = true := by
      simp [ImportRecord.isRelative, Import.newRecord, Import.formOf, hdot]
    rw [absoluteName, if_pos hform, Dotted.resolve]
    simp only [Import.newRecord, h]
  · have hform : (Import.newRecord absolute source text path items).isRelative = false := by
      simp [ImportRecord.isRelative, Import.newRecord, Import.formOf, hdot, habsolute]
    -- a path without a dot in front is its own absolute name
    have hzero : Dotted.leadingDots path = 0 := by
      cases hpath : path.toList with
      | nil => simp [Dotted.leadingDots, hpath]
      | cons c cs =>
          rw [hpath, List.head?_cons, Option.some.injEq] at hdot
          simp [Dotted.leadingDots, hpath, hdot]
    rw [Dotted.tryResolve] at h
    simp only [hzero, if_true, Except.ok.injEq] at h
    rw [absoluteName, hform, ← h]
    rfl

/-- **The names of records are normal.**  Let a module have an acceptable name, and read any
statement of it, in any project.  Every relative record that is read has an absolute name, which is
the name of the record in the graph.  The record's name is empty exactly when the path in the
statement is made of dots alone, at least as many as the module's name has segments.  In all other
cases it has no dot in front and no empty segment. -/
theorem names_normal_of_process (project : Project) (m : SourceModule) (hm : m.isValid = true)
    (statement : String) :
    List.Forall₂ (fun parsed r =>
        (parsed.isRelative = true →
          Dotted.resolve? parsed.name parsed.source = .ok r.name) ∧
        (r.name = "" ↔ ∃ n, parsed.name.toList = List.replicate n '.' ∧
          (Dotted.segments m.name).length ≤ n) ∧
        (r.name ≠ "" → r.name.toList.head? ≠ some '.' ∧
          ∀ seg ∈ Dotted.segments r.name, seg ≠ ""))
      (Import.parse statement m.name) (project.process statement m.name) := by
  rw [process, List.forall₂_map_right_iff, List.forall₂_same]
  intro parsed hparsed
  obtain ⟨hpath, absolute, text, items, habsolute, hnew⟩ :=
    Import.exists_newRecord_of_mem_parse hparsed
  obtain ⟨name, hresolve, hempty, hnormal⟩ :=
    Dotted.exists_tryResolve_of_path hpath (SourceModule.isNormal_of_isValid hm)
  have hname : (project.settle parsed).name = name := by
    have hnewName := absoluteName_newRecord habsolute hresolve text items
    rwa [← hnew] at hnewName
  have hsource : parsed.source = m.name := by
    rw [hnew]
    rfl
  rw [hname]
  refine ⟨fun _ => ?_, hempty, fun h => ⟨(hnormal h).head?_ne, hnormal h⟩⟩
  rw [Dotted.resolve?, hsource, hresolve]
  rfl

/-- In a module with two segments, two dots and a name lead to the name at the top, and three dots
lead out of the project. -/
theorem names_normal_of_climbing_paths :
    let m : SourceModule := ⟨"pkg.sub", "", []⟩
    m.isValid = true ∧ ∃ up out,
      (ofModules ⟨[]⟩ [m]).process "import ..x, ..." m.name = [up, out] ∧
      up.name ≠ "" ∧ up.name.toList.head? ≠ some '.' ∧
      (∀ seg ∈ Dotted.segments up.name, seg ≠ "") ∧ out.name = "" := by
  intro m
  have hm : m.isValid = true := by decide
  have hparse : Import.parse "import ..x, ..." m.name =
      [Import.newRecord .module m.name "import ..x, ..." "..x" [],
        Import.newRecord .module m.name "import ..x, ..." "..." []] := by decide
  have h := names_normal_of_process (ofModules ⟨[]⟩ [m]) m hm "import ..x, ..."
  rw [hparse, List.forall₂_cons_left_iff] at h
  obtain ⟨up, rest, ⟨-, hup, hnormal⟩, hrest, hprocess⟩ := h
  obtain ⟨out, rest', ⟨-, hout, -⟩, hnil, rfl⟩ := List.forall₂_cons_left_iff.1 hrest
  obtain rfl := List.forall₂_nil_left_iff.1 hnil
  have hne : up.name ≠ "" := by
    intro hempty
    obtain ⟨n, hn, -⟩ := hup.1 hempty
    have hx : 'x' ∈ List.replicate n '.' := by
      rw [← hn]
      decide
    exact absurd (List.eq_of_mem_replicate hx) (by decide)
  exact ⟨hm, up, out, hprocess, hne, (hnormal hne).1, (hnormal hne).2,
    hout.2 ⟨3, by decide, by decide⟩⟩

end Project

end ModuleDeps
