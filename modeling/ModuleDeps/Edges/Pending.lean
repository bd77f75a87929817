/-
How much of an edge map a search has still to look at.

A search enters each key once and looks at each of its targets once.  What the keys that it has not
entered yet will cost is a number that falls whenever a key is entered, which is why a search ends.

Main definitions:

* `ModuleDeps.EdgeMap.pending` — the cost of the keys that have not been entered.

Main results:

* `ModuleDeps.EdgeMap.pending_cons` — entering a key lowers the cost by one more than twice the
  number of its targets.
-/

import ModuleDeps.Edges.Basic

set_option relaxedAutoImplicit false
set_option autoImplicit false

namespace ModuleDeps

/-- The cost of the entries whose keys have not been entered. -/
def pendingEntries (visited : List String) : List (String × List String) → Nat
  | [] => 0
  | e :: es => (if e.1 ∈ visited then 0 else 1 + 2 * e.2.length) + pendingEntries visited es

theorem pendingEntries_cons_le (visited : List String) (name : String)
    (es : List (String × List String)) :
    pendingEntries (name :: visited) es ≤ pendingEntries visited es := by
  induction es with
  | nil => simp [pendingEntries]
  | cons e es ih =>
      rw [pendingEntries, pendingEntries]
      by_cases hv : e.1 ∈ visited
      · simp [hv, ih]
      · simp only [List.mem_cons, hv, or_false, if_false]
        split <;> omega

theorem pendingEntries_cons_of_lookup {visited : List String} {name : String} {ts : List String}
    {es : List (String × List String)} (hv : name ∉ visited) (h : lookupEntry name es = some ts) :
    pendingEntries (name :: visited) es + (1 + 2 * ts.length) ≤ pendingEntries visited es := by
  induction es with
  | nil => simp [lookupEntry] at h
  | cons e es ih =>
      rw [lookupEntry] at h
      rw [pendingEntries, pendingEntries]
      split at h
      · next he =>
        have := pendingEntries_cons_le visited name es
        simp only [Option.some.injEq] at h
        simp only [he, List.mem_cons_self, if_true, hv, if_false, h]
        omega
      · next he =>
        have := ih h
        simp only [List.mem_cons, he, false_or]
        omega

namespace EdgeMap

/-- The cost of the keys that have not been entered: one and two for each target. -/
def pending (edges : EdgeMap) (visited : List String) : Nat :=
  pendingEntries visited edges.entries

theorem pending_cons_le (edges : EdgeMap) (visited : List String) (name : String) :
    edges.pending (name :: visited) ≤ edges.pending visited :=
  pendingEntries_cons_le visited name edges.entries

/-- Entering a name lowers the cost by twice the number of its targets, and by one more if the name
is a key. -/
theorem pending_cons (edges : EdgeMap) {visited : List String} {name : String}
    (hv : name ∉ visited) :
    edges.pending (name :: visited) + 2 * (edges.targets name).length +
      (if edges.isKey name then 1 else 0) ≤ edges.pending visited := by
  rw [isKey, targets, get?]
  cases h : lookupEntry name edges.entries with
  | none => simpa using edges.pending_cons_le visited name
  | some ts =>
      have := pendingEntries_cons_of_lookup hv h
      simp only [Option.isSome_some, if_true, Option.getD_some, pending]
      omega

end EdgeMap

end ModuleDeps
