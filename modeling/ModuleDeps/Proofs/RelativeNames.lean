/-
Relative names, segment by segment.

A relative name has some dots in front of a rest.  It is made absolute in three cuts: the module
that uses it loses its last segment, then as many further ones as there are further dots, and the
rest is joined behind what is left.  Together the cuts drop as many segments as there are dots, or
all of them, and so a name that leads up from a module to a common package and down from there to
another name stands for just this name.

Main definitions:

* `ModuleDeps.Dotted.relativeName` — some dots in front of a rest.

Main results:

* `ModuleDeps.Dotted.exists_eq_relativeName` — every name has this form;
* `ModuleDeps.Dotted.exists_error_iff` — which names cannot be made absolute;
* `ModuleDeps.Dotted.tryResolve_to_target` — the way from a module to another name;
* `ModuleDeps.Dotted.resolve?_by_segments` — **relative names, segment by segment**.
-/

import ModuleDeps.Proofs.NormalNames

set_option relaxedAutoImplicit false
set_option autoImplicit false

namespace ModuleDeps.Dotted

/-! ### Dots and rests -/

/-- The name with some dots in front of a rest. -/
def relativeName (dots : Nat) (rest : String) : String :=
  String.ofList (List.replicate dots '.') ++ rest

@[simp] theorem toList_relativeName (dots : Nat) (rest : String) :
    (relativeName dots rest).toList = List.replicate dots '.' ++ rest.toList := by
  simp [relativeName]

section Rest

variable {rest : String} (hrest : rest.toList.head? ≠ some '.')

include hrest

/-- The dots of a relative name end where its rest begins. -/
theorem leadingDots_relativeName (dots : Nat) : leadingDots (relativeName dots rest) = dots := by
  have hstop : rest.toList.takeWhile (· == '.') = [] := by
    cases hcs : rest.toList with
    | nil => rfl
    | cons c cs =>
        rw [hcs, List.head?_cons, ne_eq, Option.some.injEq] at hrest
        simp [hrest]
  rw [leadingDots, toList_relativeName, List.takeWhile_append_of_pos (by simp), hstop]
  simp

theorem afterDots_relativeName (dots : Nat) : afterDots (relativeName dots rest) = rest := by
  have hname := replicate_append_afterDots (relativeName dots rest)
  rw [leadingDots_relativeName hrest, toList_relativeName, List.append_cancel_left_eq] at hname
  exact String.toList_inj.1 hname

end Rest

/-- Every name is some dots in front of a rest without a dot in front. -/
theorem exists_eq_relativeName (name : String) :
    ∃ dots rest, name = relativeName dots rest ∧ rest.toList.head? ≠ some '.' := by
  refine ⟨leadingDots name, afterDots name, String.toList_inj.1 ?_, fun hdot => ?_⟩
  · rw [toList_relativeName, replicate_append_afterDots]
  · rw [toList_afterDots] at hdot
    have hnot := List.head?_dropWhile_not (· == '.') name.toList
    rw [hdot] at hnot
    simp at hnot

/-! ### Names that cannot be made absolute -/

theorem isNormal_iff {name : String} : IsNormal name ↔ "" ∉ segments name := by
  rw [IsNormal]
  exact ⟨fun h hmem => h "" hmem rfl, fun h seg hseg heq => h (heq ▸ hseg)⟩

/-- The empty name is one empty segment. -/
theorem not_isNormal_iff {name : String} : ¬ IsNormal name ↔ name = "" ∨ "" ∈ segments name := by
  rw [isNormal_iff, not_not]
  refine ⟨Or.inr, fun h => h.elim ?_ id⟩
  rintro rfl
  decide

/-- A relative name has an absolute one unless its module or its rest has an empty segment. -/
theorem exists_error_iff {name source : String} (hdots : leadingDots name ≠ 0) :
    (∃ flaw, tryResolve name source = .error flaw) ↔
      ¬ IsNormal source ∨ (afterDots name ≠ "" ∧ ¬ IsNormal (afterDots name)) := by
  constructor
  · rintro ⟨flaw, hflaw⟩
    by_contra hnot
    rw [not_or, not_not, not_and_or, not_not, not_not] at hnot
    rw [tryResolve_of_isNormal hdots hnot.1 hnot.2] at hflaw
    cases hflaw
  · intro hflaw
    rw [tryResolve]
    by_cases hsource : IsNormal source
    · obtain ⟨hne, hrest⟩ := hflaw.resolve_left (not_not.2 hsource)
      rw [← hasEmptySegment_eq_false_iff, Bool.not_eq_false] at hrest
      exact ⟨.path, by simp [hdots, hasEmptySegment_eq_false_iff.2 hsource, hne, hrest]⟩
    · rw [← hasEmptySegment_eq_false_iff, Bool.not_eq_false] at hsource
      exact ⟨.source, by simp [hdots, hsource]⟩

theorem resolve?_of_ok {name source full : String} (h : tryResolve name source = .ok full) :
    resolve? name source = .ok full := by
  rw [resolve?, h]
  rfl

theorem resolve?_eq_error_iff {name source : String} :
    (∃ fault, resolve? name source = .error fault) ↔
      ∃ flaw, tryResolve name source = .error flaw := by
  rw [resolve?]
  cases tryResolve name source with
  | ok full => simp [Except.mapError]
  | error flaw => simp [Except.mapError]

/-! ### The way to another name -/

/-- A rest that is empty or a normal name has no dot in front. -/
theorem head?_ne_of_rest {rest : String} (h : rest = "" ∨ IsNormal rest) :
    rest.toList.head? ≠ some '.' := by
  rcases h with rfl | hnormal
  · decide
  · exact hnormal.head?_ne

/-- A relative name stands for the segments of its module, as many less as there are dots, and those
of its rest. -/
theorem tryResolve_relativeName {source rest : String} {dots : Nat} (hdots : dots ≠ 0)
    (hsource : IsNormal source) (hrest : rest = "" ∨ IsNormal rest) :
    tryResolve (relativeName dots rest) source = .ok (ofSegments
      ((segments source).take ((segments source).length - dots) ++
        if rest = "" then [] else segments rest)) := by
  have hleading := leadingDots_relativeName (head?_ne_of_rest hrest) dots
  have hafter := afterDots_relativeName (head?_ne_of_rest hrest) dots
  have hne : leadingDots (relativeName dots rest) ≠ 0 := by rwa [hleading]
  rw [tryResolve_of_isNormal hne hsource (by rwa [hafter]), hleading, hafter]

/-- Segments that are not empty make a rest with these segments. -/
theorem rest_ofSegments (segs : List String) (hdots : ∀ seg ∈ segs, '.' ∉ seg.toList)
    (hne : ∀ seg ∈ segs, seg ≠ "") :
    (ofSegments segs = "" ∨ IsNormal (ofSegments segs)) ∧
      (if ofSegments segs = "" then [] else segments (ofSegments segs)) = segs := by
  by_cases hnil : segs = []
  · subst hnil
    exact ⟨Or.inl rfl, rfl⟩
  · have hsegs := segments_ofSegments hnil hdots
    have hnormal : IsNormal (ofSegments segs) := by
      intro seg hseg
      rw [hsegs] at hseg
      exact hne seg hseg
    exact ⟨Or.inr hnormal, by rw [if_neg hnormal.ne_empty, hsegs]⟩

/-- Up from a module to a package that it shares with another name, and down from there, is the way
to the other name. -/
theorem tryResolve_to_target {source target : String} {k : Nat} (hsource : IsNormal source)
    (htarget : IsNormal target) (hk : k < (segments source).length)
    (hshared : (segments target).take k = (segments source).take k) :
    tryResolve (relativeName ((segments source).length - k) (ofSegments ((segments target).drop k)))
      source = .ok target := by
  have hdots : (segments source).length - k ≠ 0 := by omega
  have hup : (segments source).length - ((segments source).length - k) = k := by omega
  -- if nothing is left to go down, there are only dots
  obtain ⟨hrest, hdown⟩ := rest_ofSegments ((segments target).drop k)
    (fun seg hseg => dot_notMem_of_mem_segments (List.mem_of_mem_drop hseg))
    (fun seg hseg => htarget seg (List.mem_of_mem_drop hseg))
  rw [tryResolve_relativeName hdots hsource hrest, hdown, hup, ← hshared, List.take_append_drop,
    ofSegments_segments]

/-- **Relative names, segment by segment.**  Every name is some dots in front of a rest that does
not begin with a dot.  Without dots it stands for itself.  With dots it stands for the segments of
its module, as many less as there are dots, followed by the segments of the rest; it has no absolute
name exactly if the module or a rest that is not empty has an empty segment.  So the way up from a
module to the `k` segments that it shares with another name, and down from there, stands for the
other name. -/
theorem resolve?_by_segments (source : String) :
    (∀ name, ∃ dots rest, name = relativeName dots rest ∧ rest.toList.head? ≠ some '.') ∧
    (∀ dots rest, rest.toList.head? ≠ some '.' →
      let name := relativeName dots rest
      let flawed := (source = "" ∨ "" ∈ segments source) ∨ (rest ≠ "" ∧ "" ∈ segments rest)
      (dots = 0 → resolve? name source = .ok name) ∧
      (1 ≤ dots → ((∃ fault, resolve? name source = .error fault) ↔ flawed) ∧
        (¬ flawed → resolve? name source = .ok (ofSegments
          ((segments source).take ((segments source).length - dots) ++
            if rest = "" then [] else segments rest))))) ∧
    (∀ target k, "" ∉ segments source → "" ∉ segments target → k < (segments source).length →
      (segments target).take k = (segments source).take k →
      resolve? (relativeName ((segments source).length - k)
        (ofSegments ((segments target).drop k))) source = .ok target) := by
  refine ⟨exists_eq_relativeName, fun dots rest hrest => ?_, ?_⟩
  · intro name flawed
    have hdots : leadingDots name = dots := leadingDots_relativeName hrest dots
    have hafter : afterDots name = rest := afterDots_relativeName hrest dots
    have hflawed : flawed ↔ ¬ IsNormal source ∨ (rest ≠ "" ∧ ¬ IsNormal rest) := by
      rw [not_isNormal_iff, isNormal_iff, not_not]
    refine ⟨fun hzero => resolve?_of_ok ?_, fun hpos => ⟨?_, fun hnot => resolve?_of_ok ?_⟩⟩
    · rw [tryResolve]
      simp only [hdots, hzero, if_true]
    · have hne : leadingDots name ≠ 0 := by omega
      rw [resolve?_eq_error_iff, exists_error_iff hne, hafter, hflawed]
    · rw [hflawed, not_or, not_not, not_and_or, not_not, not_not] at hnot
      exact tryResolve_relativeName (Nat.one_le_iff_ne_zero.1 hpos) hnot.1 hnot.2
  · intro target k hsource htarget hk hshared
    exact resolve?_of_ok
      (tryResolve_to_target (isNormal_iff.2 hsource) (isNormal_iff.2 htarget) hk hshared)

/-- From a module with three segments: to its own package, by dots alone; to a name that shares its
first segment; and, past the root, to a name that is left as it is. -/
theorem resolve?_by_segments_from_inner_module :
    resolve? "." "pkg.sub.mod" = .ok "pkg.sub" ∧
      resolve? "..other.x" "pkg.sub.mod" = .ok "pkg.other.x" ∧
      resolve? ".....x.y" "pkg.sub.mod" = .ok "x.y" ∧
      ∃ fault, resolve? ".x..y" "pkg.sub.mod" = .error fault := by
  obtain ⟨-, hnames, htargets⟩ := resolve?_by_segments "pkg.sub.mod"
  have hpackage := htargets "pkg.sub" 2 (by decide) (by decide) (by decide) (by decide)
  have hother := htargets "pkg.other.x" 1 (by decide) (by decide) (by decide) (by decide)
  have hpast := ((hnames 5 "x.y" (by decide)).2 (by decide)).2 (by decide)
  have hflaw := ((hnames 1 "x..y" (by decide)).2 (by decide)).1.2 (by decide)
  exact ⟨hpackage, hother, hpast, hflaw⟩

end ModuleDeps.Dotted
