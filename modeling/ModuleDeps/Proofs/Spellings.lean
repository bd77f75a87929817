/-
What a spelling stands for.

A dotted name that is put together from two parts has the segments of both, and so a name ends in
another one, at a dot, exactly when its segments do.  This carries over to the table of spellings.
It is filled by registrations of two sorts: a full name replaces what a spelling stood for, a short
spelling does not.  The last one of a module is for its last segment, and changes nothing any more.
For each module both sorts come one after the other, so that a spelling can be claimed, overwritten
and claimed again in vain.  Whatever the order, in the end a full name stands for itself, and any
other spelling for the first module that claimed it.

Main definitions:

* `ModuleDeps.Dotted.Registration` — a registration in the table of spellings;
* `ModuleDeps.Dotted.Spellings.ofHistory` — the table that a list of registrations leaves.

Main results:

* `ModuleDeps.Dotted.segments_append` — the segments of a name with a dot inside;
* `ModuleDeps.Dotted.segments_suffix_iff`, `ModuleDeps.Dotted.segments_prefix_iff` — segments at the
  end and at the beginning of a name;
* `ModuleDeps.Dotted.mem_shortSpellings_iff` — the short spellings of a name;
* `ModuleDeps.Dotted.Spellings.ofNames_eq_ofHistory` — the table of a list of modules is left by
  the registrations of the modules;
* `ModuleDeps.Dotted.Spellings.canonical?_ofHistory` — what a spelling stands for after a history;
* `ModuleDeps.Dotted.Spellings.canonical?_ofNames_eq` — what a spelling stands for;
* `ModuleDeps.Dotted.Spellings.canonical?_ne_none_iff` — which spellings stand for a module.
-/

import ModuleDeps.Dotted.Spellings
import ModuleDeps.Proofs.Words

set_option relaxedAutoImplicit false
set_option autoImplicit false

namespace ModuleDeps

/-- Two lists of pieces, joined one after the other. -/
theorem Text.glue_append {sep : Char} {ps qs : List (List Char)} (hp : ps ≠ []) (hq : qs ≠ []) :
    glue sep (ps ++ qs) = glue sep ps ++ sep :: glue sep qs := by
  induction ps with
  | nil => exact absurd rfl hp
  | cons p ps ih =>
      by_cases hps : ps = []
      · subst hps
        rw [List.singleton_append, glue_cons _ _ hq, glue_singleton]
      · have hne : ps ++ qs ≠ [] := by simp [hps]
        rw [List.cons_append, glue_cons _ _ hne, ih hps, glue_cons _ _ hps, List.append_assoc,
          List.cons_append]

namespace Dotted

/-! ### Names made of two parts -/

theorem toList_append_dot (a b : String) :
    (a ++ "." ++ b).toList = a.toList ++ '.' :: b.toList := by
  simp

theorem segments_append (a b : String) : segments (a ++ "." ++ b) = segments a ++ segments b := by
  rw [segments, toList_append_dot, Text.cutAt_append, List.map_append, segments, segments]

theorem ofSegments_append {xs ys : List String} (hx : xs ≠ []) (hy : ys ≠ []) :
    ofSegments (xs ++ ys) = ofSegments xs ++ "." ++ ofSegments ys := by
  have hx' : xs.map String.toList ≠ [] := by simpa using hx
  have hy' : ys.map String.toList ≠ [] := by simpa using hy
  apply String.toList_inj.1
  rw [toList_append_dot]
  simp only [ofSegments, String.toList_ofList, List.map_append]
  rw [Text.glue_append hx' hy']

theorem segments_inj {a b : String} (h : segments a = segments b) : a = b := by
  rw [← ofSegments_segments a, h, ofSegments_segments]

/-- A name is cut at a dot exactly where its segments are cut into two parts. -/
theorem exists_append_dot_iff {name : String} {xs ys : List String} (hx : xs ≠ []) (hy : ys ≠ []) :
    segments name = xs ++ ys ↔
      ∃ a b, name = a ++ "." ++ b ∧ segments a = xs ∧ segments b = ys := by
  constructor
  · intro h
    have hdots : ∀ seg ∈ xs ++ ys, '.' ∉ seg.toList := by
      intro seg hseg
      rw [← h] at hseg
      exact dot_notMem_of_mem_segments hseg
    refine ⟨ofSegments xs, ofSegments ys, ?_, ?_, ?_⟩
    · rw [← ofSegments_append hx hy, ← h, ofSegments_segments]
    · exact segments_ofSegments hx fun seg hseg => hdots seg (List.mem_append_left _ hseg)
    · exact segments_ofSegments hy fun seg hseg => hdots seg (List.mem_append_right _ hseg)
  · rintro ⟨a, b, rfl, rfl, rfl⟩
    exact segments_append a b

/-- The segments of a name end in those of another one: the names are equal, or the first one ends
in the other behind a dot. -/
theorem segments_suffix_iff {short name : String} :
    segments short <:+ segments name ↔
      name = short ∨ ∃ front, name = front ++ "." ++ short := by
  constructor
  · rintro ⟨xs, hxs⟩
    by_cases hx : xs = []
    · subst hx
      exact Or.inl (segments_inj hxs.symm)
    · obtain ⟨a, b, hname, -, hb⟩ :=
        (exists_append_dot_iff hx (segments_ne_nil short)).1 hxs.symm
      exact Or.inr ⟨a, by rw [hname, segments_inj hb]⟩
  · rintro (rfl | ⟨front, rfl⟩)
    · exact List.suffix_refl _
    · exact ⟨segments front, (segments_append front short).symm⟩

/-- The segments of a name start with those of another one: the names are equal, or the first one
starts with the other and a dot. -/
theorem segments_prefix_iff {short name : String} :
    segments short <+: segments name ↔
      name = short ∨ ∃ back, name = short ++ "." ++ back := by
  constructor
  · rintro ⟨ys, hys⟩
    by_cases hy : ys = []
    · subst hy
      rw [List.append_nil] at hys
      exact Or.inl (segments_inj hys.symm)
    · obtain ⟨a, b, hname, ha, -⟩ :=
        (exists_append_dot_iff (segments_ne_nil short) hy).1 hys.symm
      exact Or.inr ⟨b, by rw [hname, segments_inj ha]⟩
  · rintro (rfl | ⟨back, rfl⟩)
    · exact List.prefix_refl _
    · exact ⟨segments back, (segments_append short back).symm⟩

/-! ### Short spellings -/

theorem exists_of_mem_shortSpellings {segs : List String} {short : String}
    (h : short ∈ shortSpellings segs) :
    ∃ front back, front ≠ [] ∧ back ≠ [] ∧ segs = front ++ back ∧ short = ofSegments back := by
  fun_induction shortSpellings segs with
  | case1 => simp at h
  | case2 seg => simp at h
  | case3 seg rest hrest ih =>
      have hne : rest ≠ [] := fun hnil => hrest (by rw [hnil])
      rcases List.mem_cons.1 h with rfl | h
      · exact ⟨[seg], rest, by simp, hne, rfl, rfl⟩
      · obtain ⟨front, back, -, hback, rfl, rfl⟩ := ih h
        exact ⟨seg :: front, back, by simp, hback, rfl, rfl⟩

theorem mem_shortSpellings_append {front back : List String} (hf : front ≠ []) (hb : back ≠ []) :
    ofSegments back ∈ shortSpellings (front ++ back) := by
  induction front with
  | nil => exact absurd rfl hf
  | cons seg front ih =>
      have hne : front ++ back ≠ [] := by simp [hb]
      obtain ⟨next, rest, hrest⟩ := List.exists_cons_of_ne_nil hne
      rw [List.cons_append, hrest, shortSpellings, ← hrest]
      · by_cases hfront : front = []
        · subst hfront
          exact List.mem_cons_self
        · exact List.mem_cons_of_mem _ (ih hfront)
      · simp

/-- The short spellings of a name are what stands behind its dots. -/
theorem mem_shortSpellings_iff {name short : String} :
    short ∈ shortSpellings (segments name) ↔ ∃ front, name = front ++ "." ++ short := by
  constructor
  · intro h
    obtain ⟨xs, ys, hx, hy, hsegs, rfl⟩ := exists_of_mem_shortSpellings h
    obtain ⟨a, b, hname, -, rfl⟩ := (exists_append_dot_iff hx hy).1 hsegs
    exact ⟨a, by rw [ofSegments_segments, hname]⟩
  · rintro ⟨front, rfl⟩
    have h := mem_shortSpellings_append (segments_ne_nil front) (segments_ne_nil short)
    rwa [ofSegments_segments, ← segments_append] at h

/-- The last segment of a name is the name itself or a short spelling. -/
theorem leaf_eq_or_mem_shortSpellings (name : String) :
    leaf name = name ∨ leaf name ∈ shortSpellings (segments name) := by
  have hne := segments_ne_nil name
  have hleaf : leaf name = (segments name).getLast hne := by
    rw [leaf, List.getLastD_eq_getLast?, List.getLast?_eq_some_getLast hne, Option.getD_some]
  have hsegments := List.dropLast_concat_getLast hne
  rw [← hleaf] at hsegments
  have hsingle : ofSegments [leaf name] = leaf name := by simp [ofSegments]
  by_cases hfront : (segments name).dropLast = []
  · left
    rw [hfront, List.nil_append] at hsegments
    rw [← hsingle, hsegments, ofSegments_segments]
  · right
    have hshort := mem_shortSpellings_append hfront (List.cons_ne_nil (leaf name) [])
    rwa [hsegments, hsingle] at hshort

/-! ### Registrations -/

/-- A registration in the table of spellings. -/
inductive Registration where
  /-- A module under its full name, which takes the place of what the spelling stood for. -/
  | full (name : String)
  /-- A module under a shorter spelling, which counts only where it is new. -/
  | short (spelling name : String)
  deriving DecidableEq

namespace Registration

/-- The registrations of a module, in the order in which they are made. -/
def ofName (name : String) : List Registration :=
  .full name :: ((shortSpellings (segments name)).map fun spelling => .short spelling name) ++
    [.short (leaf name) name]

/-- The module that a registration claims a shorter spelling for. -/
def claim? (spelling : String) : Registration → Option String
  | .full _ => none
  | .short s name => if s = spelling then some name else none

theorem full_mem_ofName_iff {name spelling : String} :
    .full spelling ∈ ofName name ↔ name = spelling := by
  simp [ofName, eq_comm]

theorem full_mem_flatMap_iff {names : List String} {spelling : String} :
    .full spelling ∈ names.flatMap ofName ↔ spelling ∈ names := by
  simp [List.mem_flatMap, full_mem_ofName_iff]

/-- A module claims the spellings for which it is registered as a short one. -/
theorem findSome?_map_short (name spelling : String) (shorts : List String) :
    (shorts.map fun short => Registration.short short name).findSome? (claim? spelling) =
      if spelling ∈ shorts then some name else none := by
  induction shorts with
  | nil => rfl
  | cons short shorts ih =>
      rw [List.map_cons, List.findSome?_cons, ih]
      by_cases heq : short = spelling
      · simp [claim?, heq]
      · have hne : spelling ≠ short := fun h => heq h.symm
        simp [claim?, heq, hne]

/-- A module claims its own short spellings; its last segment, which it claims once more, is one of
them or its full name. -/
theorem findSome?_ofName {name spelling : String} (hne : name ≠ spelling) :
    (ofName name).findSome? (claim? spelling) =
      if spelling ∈ shortSpellings (segments name) then some name else none := by
  rw [ofName, List.findSome?_append, List.findSome?_cons, findSome?_map_short]
  by_cases hshort : spelling ∈ shortSpellings (segments name)
  · simp [claim?, hshort]
  · have hleaf : leaf name ≠ spelling := by
      rcases leaf_eq_or_mem_shortSpellings name with hfull | hmem
      · rwa [hfull]
      · rintro rfl
        exact hshort hmem
    simp [claim?, hshort, hleaf]

end Registration

/-! ### The table -/

namespace Spellings

/-- The table after one more registration. -/
def register (spellings : Spellings) : Registration → Spellings
  | .full name => ⟨spellings.table.insert name name⟩
  | .short spelling name => ⟨spellings.table.insertIfNew spelling name⟩

/-- The table that a list of registrations leaves. -/
def ofHistory (history : List Registration) : Spellings :=
  history.foldl register empty

/-- To add a module is to make its registrations one by one. -/
theorem insert_eq_foldl_register (spellings : Spellings) (name : String) :
    spellings.insert name = (Registration.ofName name).foldl register spellings := by
  have hshorts : ∀ (shorts : List String) (table : Std.HashMap String String),
      (shorts.map fun spelling => Registration.short spelling name).foldl register ⟨table⟩ =
        ⟨shorts.foldl (fun table short => table.insertIfNew short name) table⟩ := by
    intro shorts
    induction shorts with
    | nil => exact fun table => rfl
    | cons short shorts ih => exact fun table => ih _
  rw [Registration.ofName, List.foldl_append, List.foldl_cons]
  exact congrArg (fun table => register table (.short (leaf name) name)) (hshorts _ _).symm

/-- The table of a list of modules is left by the registrations of the modules. -/
theorem ofNames_eq_ofHistory (names : List String) :
    ofNames names = ofHistory (names.flatMap Registration.ofName) := by
  rw [ofNames, ofHistory, List.foldl_flatMap]
  congr 1
  funext spellings name
  exact spellings.insert_eq_foldl_register name

/-- What one registration changes. -/
theorem canonical?_register (spellings : Spellings) (r : Registration) (spelling : String) :
    (spellings.register r).canonical? spelling =
      if r = .full spelling then some spelling
      else (spellings.canonical? spelling).or (r.claim? spelling) := by
  cases r with
  | full name =>
      rw [canonical?, register, Std.HashMap.getElem?_insert]
      by_cases heq : name = spelling
      · simp [heq]
      · simp [heq, Registration.claim?, canonical?]
  | short short name =>
      have hne : Registration.short short name ≠ .full spelling := by simp
      rw [if_neg hne, canonical?, register, Std.HashMap.getElem?_insertIfNew, canonical?]
      by_cases heq : short = spelling
      · subst heq
        cases hold : spellings.table[short]? with
        | none =>
            have hnew : short ∉ spellings.table := by
              rw [Std.HashMap.mem_iff_isSome_getElem?, hold]
              simp
            simp [hnew, Registration.claim?]
        | some full =>
            have hmem : short ∈ spellings.table := by
              rw [Std.HashMap.mem_iff_isSome_getElem?, hold, Option.isSome_some]
            simp [hmem]
      · simp [heq, Registration.claim?]

theorem canonical?_foldl_register (history : List Registration) (spellings : Spellings)
    (spelling : String) :
    (history.foldl register spellings).canonical? spelling =
      if .full spelling ∈ history then some spelling
      else (spellings.canonical? spelling).or
        (history.findSome? (Registration.claim? spelling)) := by
  induction history generalizing spellings with
  | nil => simp
  | cons r history ih =>
      rw [List.foldl_cons, ih, canonical?_register]
      by_cases hmem : .full spelling ∈ history
      · simp [hmem]
      · by_cases heq : r = .full spelling
        · simp [hmem, heq]
        · have hcons : .full spelling ∉ r :: history := by
            rw [List.mem_cons, not_or]
            exact ⟨fun h => heq h.symm, hmem⟩
          rw [if_neg hmem, if_neg heq, if_neg hcons, Option.or_assoc, List.findSome?_cons]
          cases r.claim? spelling <;> rfl

/-- **What a spelling stands for after a history**: for itself if it was registered as a full name,
before or after others claimed it, and for the first module that claimed it otherwise. -/
theorem canonical?_ofHistory (history : List Registration) (spelling : String) :
    (ofHistory history).canonical? spelling =
      if .full spelling ∈ history then some spelling
      else history.findSome? (Registration.claim? spelling) := by
  have hempty : empty.canonical? spelling = none := by simp [canonical?, empty]
  rw [ofHistory, canonical?_foldl_register, hempty, Option.none_or]

/-- What one more module changes. -/
theorem canonical?_insert (spellings : Spellings) (name spelling : String) :
    (spellings.insert name).canonical? spelling =
      if name = spelling then some name
      else (spellings.canonical? spelling).or
        (if spelling ∈ shortSpellings (segments name) then some name else none) := by
  rw [insert_eq_foldl_register, canonical?_foldl_register]
  by_cases heq : name = spelling
  · rw [if_pos (Registration.full_mem_ofName_iff.2 heq), if_pos heq, heq]
  · rw [if_neg (mt Registration.full_mem_ofName_iff.1 heq), if_neg heq,
      Registration.findSome?_ofName heq]

/-- **What a spelling stands for**: a full name for itself, and any other spelling for the first
module that ends in it. -/
theorem canonical?_ofNames_eq (names : List String) (spelling : String) :
    (ofNames names).canonical? spelling =
      if spelling ∈ names then some spelling
      else names.find? fun name => spelling ∈ shortSpellings (segments name) := by
  rw [ofNames_eq_ofHistory, canonical?_ofHistory]
  simp only [Registration.full_mem_flatMap_iff]
  by_cases hfull : spelling ∈ names
  · rw [if_pos hfull, if_pos hfull]
  · rw [if_neg hfull, if_neg hfull]
    induction names with
    | nil => rfl
    | cons name names ih =>
        rw [List.mem_cons, not_or] at hfull
        rw [List.flatMap_cons, List.findSome?_append,
          Registration.findSome?_ofName (Ne.symm hfull.1), ih hfull.2, List.find?_cons]
        by_cases hshort : spelling ∈ shortSpellings (segments name) <;> simp [hshort]

/-- One more module at the end of the list takes its full name, and the spellings that stood for
nothing before. -/
theorem canonical?_ofNames_concat (names : List String) (name spelling : String) :
    (ofNames (names ++ [name])).canonical? spelling =
      if name = spelling then some name
      else ((ofNames names).canonical? spelling).or
        (if spelling ∈ shortSpellings (segments name) then some name else none) := by
  rw [ofNames, List.foldl_append]
  exact canonical?_insert _ name spelling

/-- What a spelling stands for is a module that ends in it. -/
theorem mem_and_suffix_of_canonical? {names : List String} {spelling full : String}
    (h : (ofNames names).canonical? spelling = some full) :
    full ∈ names ∧ segments spelling <:+ segments full := by
  rw [canonical?_ofNames_eq] at h
  split at h
  · next hmem =>
    rw [Option.some.injEq] at h
    subst h
    exact ⟨hmem, List.suffix_refl _⟩
  · have hshort := List.find?_some h
    obtain ⟨front, hfront⟩ := mem_shortSpellings_iff.1 (of_decide_eq_true hshort)
    exact ⟨List.mem_of_find?_eq_some h, segments_suffix_iff.2 (Or.inr ⟨front, hfront⟩)⟩

/-- A spelling stands for something exactly when some module ends in it. -/
theorem canonical?_ne_none_iff {names : List String} {spelling : String} :
    (ofNames names).canonical? spelling ≠ none ↔
      ∃ name ∈ names, segments spelling <:+ segments name := by
  constructor
  · intro h
    obtain ⟨full, hfull⟩ := Option.ne_none_iff_exists'.1 h
    exact ⟨full, mem_and_suffix_of_canonical? hfull⟩
  · rintro ⟨name, hname, hsuffix⟩ h
    rw [canonical?_ofNames_eq] at h
    split at h
    · simp at h
    · next hmem =>
      rcases segments_suffix_iff.1 hsuffix with rfl | hfront
      · exact hmem hname
      · have hno := List.find?_eq_none.1 h name hname
        exact hno (decide_eq_true (mem_shortSpellings_iff.2 hfront))

end Spellings

end Dotted

end ModuleDeps
