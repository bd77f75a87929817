/-
Depths measure longest walks.

If an edge map has no closed walk, no edge closes a cycle, and so the equation of the depths loses
its exception: the depth of a name is one more than that of its deepest target.  Along a walk the
depths fall by at least one with every edge, so no walk from a name is longer than its depth; and a
walk of just that length there is on any edge map (`ModuleDeps.EdgeMap.Descends.exists_walk`).

The longest walks do not depend on the order in which keys and targets are written, and neither do
the depths, although the search goes through an edge map in this order.

Main results:

* `ModuleDeps.EdgeMap.IsWalkFrom.length_le_depthAt` — no walk is longer than the depth of its start;
* `ModuleDeps.EdgeMap.exists_walk_of_depthAt` — some walk is as long;
* `ModuleDeps.EdgeMap.depths_measure_longest_walks` — **depths are lengths of longest walks**.
-/

import Mathlib.Order.Bounds.Basic
import ModuleDeps.Proofs.ClosedWalks
import ModuleDeps.Proofs.DescendingWalks

set_option relaxedAutoImplicit false
set_option autoImplicit false

namespace ModuleDeps.EdgeMap

/-! ### Depths without cycles -/

section Acyclic

variable {edges : EdgeMap}

theorem depthAt_of_mem {m : String} (h : m ∈ edges.keys ∨ m ∈ edges.allTargets) :
    edges.depths.get? m = some (edges.depthAt m) := by
  rw [depthAt, get?_depths (mem_names_depths_iff.2 h), Option.getD_some]

/-- No walk is longer than the depth of its start. -/
theorem IsWalkFrom.length_le_depthAt (hcycles : edges.cycles = []) {m : String}
    {names : List String} (h : edges.IsWalkFrom m names) : names.length ≤ edges.depthAt m := by
  induction names generalizing m with
  | nil => exact Nat.zero_le _
  | cons t names ih =>
      obtain ⟨hedge, hrest⟩ := isWalkFrom_cons.1 h
      have hfall : edges.depthAt t < edges.depthAt m :=
        depthAt_lt_of_edge hedge (by rw [hcycles]; exact not_closes_nil _ _)
      have hle := ih hrest
      rw [List.length_cons]
      omega

/-- Some walk is as long as the depth of its start. -/
theorem exists_walk_of_depthAt (edges : EdgeMap) (m : String) :
    ∃ names, edges.IsWalkFrom m names ∧ names.length = edges.depthAt m := by
  rw [depthAt]
  cases hm : edges.depths.get? m with
  | none => exact ⟨[], isWalkFrom_nil edges m, rfl⟩
  | some d =>
      obtain ⟨names, hwalk, hlength, -⟩ := edges.descends_depths.exists_walk d m hm
      exact ⟨names, hwalk, hlength⟩

/-- The depth of a name is the number of edges of a longest walk from it. -/
theorem isGreatest_depthAt (hcycles : edges.cycles = []) (m : String) :
    IsGreatest {n | ∃ names, edges.IsWalkFrom m names ∧ names.length = n} (edges.depthAt m) := by
  constructor
  · exact exists_walk_of_depthAt edges m
  · rintro n ⟨names, hwalk, rfl⟩
    exact hwalk.length_le_depthAt hcycles

end Acyclic

/-! ### Edge maps written in another order -/

section Reordered

variable {edges other : EdgeMap}

theorem isClosedWalk_of_edge_iff (hedge : ∀ x y, other.Edge x y ↔ edges.Edge x y)
    {names : List String} (h : other.IsClosedWalk names) : edges.IsClosedWalk names :=
  ⟨h.1.imp fun x y hxy => (hedge x y).1 hxy, h.2⟩

theorem mem_names_depths_of_edge_iff (hkeys : ∀ x, x ∈ other.keys ↔ x ∈ edges.keys)
    (hedge : ∀ x y, other.Edge x y ↔ edges.Edge x y) (x : String) :
    x ∈ other.depths.names ↔ x ∈ edges.depths.names := by
  rw [mem_names_depths_iff, mem_names_depths_iff, mem_allTargets_iff, mem_allTargets_iff, hkeys]
  exact or_congr_right (exists_congr fun m => hedge m x)

/-- Without cycles, edge maps with the same keys and edges have the same depths. -/
theorem depths_eq_of_edge_iff (hcycles : edges.cycles = []) (hcycles' : other.cycles = [])
    (hkeys : ∀ x, x ∈ other.keys ↔ x ∈ edges.keys)
    (hedge : ∀ x y, other.Edge x y ↔ edges.Edge x y) : other.depths = edges.depths := by
  have hrel : other.Edge = edges.Edge := by
    funext x y
    exact propext (hedge x y)
  refine NameTable.eq_of_get? fun m => ?_
  have hnames := mem_names_depths_of_edge_iff hkeys hedge m
  by_cases hm : m ∈ edges.depths.names
  · -- both depths are the length of the same longest walks
    have hgreatest := isGreatest_depthAt hcycles m
    have hgreatest' := isGreatest_depthAt hcycles' m
    simp only [IsWalkFrom, hrel] at hgreatest hgreatest'
    rw [depthAt_of_mem (mem_names_depths_iff.1 hm),
      depthAt_of_mem (mem_names_depths_iff.1 (hnames.2 hm)), hgreatest'.unique hgreatest]
  · rw [NameTable.get?_eq_none_iff.2 hm, NameTable.get?_eq_none_iff.2 fun h => hm (hnames.1 h)]

end Reordered

/-- **Depths are lengths of longest walks.**  If there is no closed walk, no cycle is reported, and
the depth of every key and of every target is the greatest number of edges that a walk from there
has; it is zero where there is no target.  Keys and targets may be written in any order: an edge map
that has the same keys and the same edges has no cycles either, and the same depths. -/
theorem depths_measure_longest_walks (edges : EdgeMap)
    (hopen : ∀ names, ¬ edges.IsClosedWalk names) :
    edges.cycles = [] ∧
    (∀ m, m ∈ edges.keys ∨ m ∈ edges.allTargets →
      ∃ depth, edges.depths.get? m = some depth ∧
        IsGreatest {n | ∃ names, edges.IsWalkFrom m names ∧ names.length = n} depth ∧
        (edges.targets m = [] → depth = 0)) ∧
    ∀ other : EdgeMap, (∀ x, x ∈ other.keys ↔ x ∈ edges.keys) →
      (∀ x y, other.Edge x y ↔ edges.Edge x y) →
      other.cycles = [] ∧ other.depths = edges.depths := by
  have hcycles : edges.cycles = [] := cycles_eq_nil_iff.2 hopen
  refine ⟨hcycles, fun m hm => ?_, fun other hkeys hedge => ?_⟩
  · have hgreatest := isGreatest_depthAt hcycles m
    refine ⟨edges.depthAt m, depthAt_of_mem hm, hgreatest, ?_⟩
    intro hnone
    obtain ⟨names, hwalk, hlength⟩ := hgreatest.1
    cases names with
    | nil => exact hlength.symm
    | cons t names =>
        have hedge : t ∈ edges.targets m := (isWalkFrom_cons.1 hwalk).1
        rw [hnone] at hedge
        exact absurd hedge List.not_mem_nil
  · have hcycles' : other.cycles = [] :=
      cycles_eq_nil_iff.2 fun names hwalk => hopen names (isClosedWalk_of_edge_iff hedge hwalk)
    exact ⟨hcycles', depths_eq_of_edge_iff hcycles hcycles' hkeys hedge⟩

/-- A name with a short and a long way to the same target, written in two orders: in the first one
the search meets the short way first. -/
theorem depths_measure_longer_way :
    let edges : EdgeMap := .ofList [("a", ["d", "b"]), ("b", ["c"]), ("c", ["d"])]
    let other : EdgeMap := .ofList [("c", ["d"]), ("b", ["c"]), ("a", ["b", "d"])]
    edges.cycles = [] ∧ edges.depths.get? "a" = some 3 ∧
      IsGreatest {n | ∃ names, edges.IsWalkFrom "a" names ∧ names.length = n} 3 ∧
      other.depths = edges.depths := by
  intro edges other
  have hnone : edges.cycles = [] := by decide +kernel
  obtain ⟨hcycles, hdepths, horder⟩ :=
    depths_measure_longest_walks edges (cycles_eq_nil_iff.1 hnone)
  obtain ⟨depth, hdepth, hgreatest, -⟩ := hdepths "a" (by decide +kernel)
  have hthree : edges.depths.get? "a" = some 3 := by decide +kernel
  rw [hthree] at hdepth
  cases hdepth
  have hkeys : ∀ x, x ∈ other.keys ↔ x ∈ edges.keys := by
    have hperm : other.keys.Perm edges.keys := by decide +kernel
    exact fun x => hperm.mem_iff
  have hedge : ∀ x y, other.Edge x y ↔ edges.Edge x y := by
    intro x y
    by_cases hx : x ∈ edges.keys
    · have hperm : ∀ x ∈ edges.keys, (other.targets x).Perm (edges.targets x) := by decide +kernel
      exact (hperm x hx).mem_iff
    · have hx' : x ∉ other.keys := fun h => hx ((hkeys x).1 h)
      rw [Edge, Edge, targets_of_notMem_keys hx, targets_of_notMem_keys hx']
  exact ⟨hcycles, hthree, hgreatest, (horder other hkeys hedge).2⟩

end ModuleDeps.EdgeMap
