/-
What an edge map and a table hold, said by membership.

The searches look names up, and their theory speaks about which names are keys, which are targets
and which have an entry.  This module joins the two: a look-up succeeds exactly at the names that
are there, and the targets of all keys together are the targets that a key has.

Main results:

* `ModuleDeps.NameTable.get?_eq_none_iff` — a table has no entry exactly for the other names;
* `ModuleDeps.NameTable.eq_of_get?` — a table is determined by what a look-up finds;
* `ModuleDeps.EdgeMap.isKey_iff` — a look-up finds exactly the keys;
* `ModuleDeps.EdgeMap.mem_allTargets_iff` — every target is a target of some key.
-/

import Mathlib.Data.List.Basic
import ModuleDeps.Edges.Basic

set_option relaxedAutoImplicit false
set_option autoImplicit false

namespace ModuleDeps

/-! ### Entries -/

variable {β : Type}

/-- A look-up finds nothing exactly where no entry has the name. -/
theorem lookupEntry_eq_none_iff {name : String} {es : List (String × β)} :
    lookupEntry name es = none ↔ name ∉ es.map Prod.fst := by
  induction es with
  | nil => simp [lookupEntry]
  | cons e es ih =>
      rw [lookupEntry]
      by_cases he : e.1 = name
      · simp [he]
      · have hne : name ≠ e.1 := fun h => he h.symm
        simp [he, hne, ih]

/-- What a look-up finds is an entry. -/
theorem mem_of_lookupEntry {name : String} {value : β} {es : List (String × β)}
    (h : lookupEntry name es = some value) : (name, value) ∈ es := by
  induction es with
  | nil => simp [lookupEntry] at h
  | cons e es ih =>
      rw [lookupEntry] at h
      split at h
      · next he =>
        obtain ⟨n, v⟩ := e
        simp only [Option.some.injEq] at h
        simp_all
      · exact List.mem_cons_of_mem _ (ih h)

/-- Where no name stands twice, a look-up finds every entry. -/
theorem lookupEntry_of_mem {name : String} {value : β} {es : List (String × β)}
    (hes : (es.map Prod.fst).Nodup) (h : (name, value) ∈ es) :
    lookupEntry name es = some value := by
  induction es with
  | nil => simp at h
  | cons e es ih =>
      rw [List.map_cons, List.nodup_cons] at hes
      rw [lookupEntry]
      rcases List.mem_cons.1 h with rfl | h
      · simp
      · have hne : e.1 ≠ name := by
          rintro rfl
          exact hes.1 (List.mem_map.2 ⟨_, h, rfl⟩)
        rw [if_neg hne]
        exact ih hes.2 h

namespace NameTable

theorem get?_eq_none_iff {table : NameTable β} {name : String} :
    table.get? name = none ↔ name ∉ table.names :=
  lookupEntry_eq_none_iff

@[simp] theorem names_empty : (empty : NameTable β).names = [] := rfl

/-- The entries of a table are what a look-up finds. -/
theorem mem_entries_iff {table : NameTable β} {name : String} {value : β} :
    (name, value) ∈ table.entries ↔ table.get? name = some value := by
  constructor
  · intro h
    refine lookupEntry_of_mem (table.sorted.imp ?_) h
    rintro a b hlt rfl
    exact String.lt_irrefl _ hlt
  · exact mem_of_lookupEntry

/-- A table is determined by what a look-up finds. -/
theorem eq_of_get? {table table' : NameTable β} (h : ∀ name, table.get? name = table'.get? name) :
    table = table' := by
  have hsorted : ∀ t : NameTable β, t.entries.Pairwise fun e e' => e.1 < e'.1 := fun t =>
    List.pairwise_map.1 t.sorted
  have hnodup : ∀ t : NameTable β, t.entries.Nodup := by
    intro t
    refine (hsorted t).imp ?_
    rintro e _ hlt rfl
    exact String.lt_irrefl _ hlt
  have hperm : table.entries.Perm table'.entries := by
    refine (List.perm_ext_iff_of_nodup (hnodup table) (hnodup table')).2 ?_
    rintro ⟨name, value⟩
    rw [mem_entries_iff, mem_entries_iff, h]
  have hentries : table.entries = table'.entries := by
    refine hperm.eq_of_pairwise ?_ (hsorted table) (hsorted table')
    intro e e' _ _ hlt hgt
    exact absurd (String.lt_trans hlt hgt) (String.lt_irrefl _)
  cases table
  cases table'
  cases hentries
  rfl

end NameTable

/-! ### Edges -/

namespace EdgeMap

/-- A look-up finds exactly the keys. -/
theorem isKey_iff {edges : EdgeMap} {name : String} :
    edges.isKey name = true ↔ name ∈ edges.keys := by
  rw [isKey, Option.isSome_iff_ne_none, ne_eq, get?, lookupEntry_eq_none_iff, not_not, keys]

/-- A name that is no key has no target. -/
theorem targets_of_notMem_keys {edges : EdgeMap} {name : String} (h : name ∉ edges.keys) :
    edges.targets name = [] := by
  rw [targets, get?, lookupEntry_eq_none_iff.2 h, Option.getD_none]

theorem targets_of_get? {edges : EdgeMap} {name : String} {ts : List String}
    (h : edges.get? name = some ts) : edges.targets name = ts := by
  rw [targets, h, Option.getD_some]

/-- Only keys have targets. -/
theorem mem_keys_of_mem_targets {edges : EdgeMap} {x y : String} (h : y ∈ edges.targets x) :
    x ∈ edges.keys := by
  by_contra hx
  rw [targets_of_notMem_keys hx] at h
  exact absurd h List.not_mem_nil

/-- The targets of the edge map are the targets that its keys have. -/
theorem mem_allTargets_iff {edges : EdgeMap} {y : String} :
    y ∈ edges.allTargets ↔ ∃ x, y ∈ edges.targets x := by
  rw [allTargets, List.mem_flatMap]
  constructor
  · rintro ⟨⟨x, ts⟩, he, hy⟩
    refine ⟨x, ?_⟩
    rw [targets_of_get? (lookupEntry_of_mem edges.nodup he)]
    exact hy
  · rintro ⟨x, hy⟩
    cases hx : edges.get? x with
    | none => simp [targets, hx] at hy
    | some ts =>
        rw [targets_of_get? hx] at hy
        exact ⟨(x, ts), mem_of_lookupEntry hx, hy⟩

end EdgeMap

end ModuleDeps
