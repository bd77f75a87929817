/-
Canonical names.

The canonical name of a spelling is the full name of the module that it stands for.  In the table of
a list of modules it can be told from the list alone: a full name is its own canonical name, and the
canonical name of any other spelling is that of the first module that has it behind a dot.

If the registrations of the same modules are made in another order, the answer may be another
module.  It is a module of the list nevertheless, and its own canonical name, since every module
that claims a spelling is registered under its full name too, sooner or later.

Main definitions:

* `ModuleDeps.Dotted.IsTail` — a name stands behind a dot of another one.

Main results:

* `ModuleDeps.Dotted.Spellings.canonical?_of_perm` — answers in any order of the registrations;
* `ModuleDeps.Dotted.Spellings.canonical?_of_first` — the first module that has a spelling behind a
  dot;
* `ModuleDeps.Dotted.Spellings.canonical?_is_first_tail` — **canonical names**.
-/

import ModuleDeps.SourceModule
import ModuleDeps.Proofs.Spellings

set_option relaxedAutoImplicit false
set_option autoImplicit false

namespace ModuleDeps.Dotted

/-- The name `short` is the part of `name` behind one of its dots. -/
def IsTail (short name : String) : Prop :=
  ∃ front, name = front ++ "." ++ short

instance (short name : String) : Decidable (IsTail short name) :=
  decidable_of_iff (short ∈ shortSpellings (segments name)) mem_shortSpellings_iff

/-! ### Any order -/

namespace Registration

theorem claim?_eq_some_iff {r : Registration} {spelling name : String} :
    r.claim? spelling = some name ↔ r = .short spelling name := by
  cases r with
  | full n => simp [claim?]
  | short s n => simp [claim?, eq_comm]

/-- A module is registered under its full name whenever it is registered at all. -/
theorem full_mem_of_short_mem {names : List String} {spelling name : String}
    (h : .short spelling name ∈ names.flatMap ofName) : .full name ∈ names.flatMap ofName := by
  obtain ⟨n, hn, hr⟩ := List.mem_flatMap.1 h
  obtain rfl : n = name := by
    simp only [ofName, List.cons_append, List.mem_cons, reduceCtorEq, List.mem_append,
      List.mem_map, short.injEq, List.not_mem_nil, or_false, false_or] at hr
    rcases hr with ⟨-, -, -, rfl⟩ | ⟨-, rfl⟩
    · rfl
    · rfl
  exact List.mem_flatMap.2 ⟨n, hn, List.mem_cons_self⟩

end Registration

namespace Spellings

/-- In whatever order the registrations of some modules are made, every answer is one of the modules
and its own canonical name. -/
theorem canonical?_of_perm {names : List String} {history : List Registration}
    (hperm : history.Perm (names.flatMap Registration.ofName)) {spelling full : String}
    (h : (ofHistory history).canonical? spelling = some full) :
    full ∈ names ∧ (ofHistory history).canonical? full = some full := by
  have hfull : .full full ∈ history := by
    rw [canonical?_ofHistory] at h
    split at h
    · next hmem =>
      rw [Option.some.injEq] at h
      exact h ▸ hmem
    · obtain ⟨r, hr, hclaim⟩ := List.exists_of_findSome?_eq_some h
      rw [Registration.claim?_eq_some_iff] at hclaim
      subst hclaim
      exact hperm.mem_iff.2 (Registration.full_mem_of_short_mem (hperm.mem_iff.1 hr))
  refine ⟨Registration.full_mem_flatMap_iff.1 (hperm.mem_iff.1 hfull), ?_⟩
  rw [canonical?_ofHistory, if_pos hfull]

/-! ### Lists of modules -/

/-- A spelling that is no full name stands for the first module that has it behind a dot. -/
theorem canonical?_of_first {names before after : List String} {spelling name : String}
    (hnames : names = before ++ name :: after) (hfull : spelling ∉ names)
    (htail : IsTail spelling name) (hbefore : ∀ n ∈ before, ¬ IsTail spelling n) :
    (ofNames names).canonical? spelling = some name := by
  rw [canonical?_ofNames_eq, if_neg hfull, List.find?_eq_some_iff_append]
  refine ⟨decide_eq_true (mem_shortSpellings_iff.2 htail), before, after, hnames, fun n hn => ?_⟩
  have hnot : spelling ∉ shortSpellings (segments n) := fun h =>
    hbefore n hn (mem_shortSpellings_iff.1 h)
  simp [hnot]

/-- A spelling that is no full name and stands behind no dot stands for no module. -/
theorem canonical?_of_none {names : List String} {spelling : String} (hfull : spelling ∉ names)
    (h : ∀ n ∈ names, ¬ IsTail spelling n) : (ofNames names).canonical? spelling = none := by
  rw [canonical?_ofNames_eq, if_neg hfull, List.find?_eq_none]
  intro n hn hshort
  exact h n hn (mem_shortSpellings_iff.1 (of_decide_eq_true hshort))

/-- **Canonical names.**  In the table of any list of modules, a full name stands for itself.  Any
other spelling stands for the first module of the list that has it behind one of its dots, and for
nothing if there is none.  The table is left by the registrations of the modules; whatever the order
in which these are made, every answer is a module of the list and its own canonical name. -/
theorem canonical?_is_first_tail (modules : List SourceModule) (spelling : String) :
    let table := ofNames (modules.map SourceModule.name)
    let registrations := (modules.map SourceModule.name).flatMap Registration.ofName
    ((∃ m ∈ modules, m.name = spelling) → table.canonical? spelling = some spelling) ∧
    ((∀ m ∈ modules, m.name ≠ spelling) →
      (∀ before m after, modules = before ++ m :: after → IsTail spelling m.name →
        (∀ n ∈ before, ¬ IsTail spelling n.name) → table.canonical? spelling = some m.name) ∧
      ((∀ m ∈ modules, ¬ IsTail spelling m.name) → table.canonical? spelling = none)) ∧
    table = ofHistory registrations ∧
    ∀ history, history.Perm registrations →
      ∀ full, (ofHistory history).canonical? spelling = some full →
        (∃ m ∈ modules, m.name = full) ∧ (ofHistory history).canonical? full = some full := by
  intro table registrations
  refine ⟨?_, fun hfull => ?_, ofNames_eq_ofHistory _, fun history hperm full hanswer => ?_⟩
  · intro hfull
    rw [canonical?_ofNames_eq, if_pos (List.mem_map.2 hfull)]
  · have hfull' : spelling ∉ modules.map SourceModule.name := by
      simpa using hfull
    constructor
    · rintro before m after rfl htail hbefore
      exact canonical?_of_first List.map_append hfull' htail (by simpa using hbefore)
    · intro hnone
      exact canonical?_of_none hfull' (by simpa using hnone)
  · obtain ⟨hmem, hself⟩ := canonical?_of_perm hperm hanswer
    exact ⟨List.mem_map.1 hmem, hself⟩

/-- Two modules share an end, one has an empty segment, and the last one is itself an end of others.
If the registrations are made in reverse order, the shared end stands for the other module. -/
theorem canonical?_is_first_tail_of_shared_ends :
    let modules : List SourceModule := [⟨"a.common.utils", "", []⟩, ⟨"b.common.utils", "", []⟩,
      ⟨"x..y", "", []⟩, ⟨"utils", "", []⟩]
    let table := ofNames (modules.map SourceModule.name)
    let reversed := ((modules.map SourceModule.name).flatMap Registration.ofName).reverse
    table.canonical? "utils" = some "utils" ∧
      table.canonical? "common.utils" = some "a.common.utils" ∧
      table.canonical? ".y" = some "x..y" ∧
      table.canonical? "common" = none ∧
      (ofHistory reversed).canonical? "common.utils" = some "b.common.utils" ∧
      (∃ m ∈ modules, m.name = "b.common.utils") ∧
      (ofHistory reversed).canonical? "b.common.utils" = some "b.common.utils" := by
  intro modules table reversed
  have hutils := (canonical?_is_first_tail modules "utils").1 (by decide)
  obtain ⟨-, hcommonUtils, -, horder⟩ := canonical?_is_first_tail modules "common.utils"
  have hfirst := (hcommonUtils (by decide)).1 [] _ _ rfl (by decide) (by decide)
  have hempty := ((canonical?_is_first_tail modules ".y").2.1 (by decide)).1
    [⟨"a.common.utils", "", []⟩, ⟨"b.common.utils", "", []⟩] _ _ rfl (by decide) (by decide)
  have hnone := ((canonical?_is_first_tail modules "common").2.1 (by decide)).2 (by decide)
  have hreversed : (ofHistory reversed).canonical? "common.utils" = some "b.common.utils" := by
    rw [canonical?_ofHistory]
    decide
  exact ⟨hutils, hfirst, hempty, hnone, hreversed,
    horder reversed (List.reverse_perm _) _ hreversed⟩

end Spellings

end ModuleDeps.Dotted
