/-
Walks in an edge map.

A walk goes along edges.  Depths fall along every edge that closes no cycle, so a walk that comes
back to its start must use an edge that does: a closed walk is never missed by the search for
cycles.

Main definitions:

* `ModuleDeps.EdgeMap.Edge` — one name has the other among its targets;
* `ModuleDeps.EdgeMap.Reaches` — there is a walk of at least one edge;
* `ModuleDeps.EdgeMap.IsWalkFrom` — names that follow one another along edges from a given name;
* `ModuleDeps.EdgeMap.depthAt` — the depth of a name.

Main results:

* `ModuleDeps.EdgeMap.depthAt_lt_of_edge` — depths fall along edges that close no cycle;
* `ModuleDeps.EdgeMap.exists_closes_of_transGen` — some edge of a closed walk closes a cycle;
* `ModuleDeps.EdgeMap.cycles_ne_nil_of_reaches_self` — a closed walk makes the search find a cycle;
* `ModuleDeps.EdgeMap.reaches_of_ring` — along a ring of edges, every name reaches every other one.
-/

import Mathlib.Logic.Relation
import ModuleDeps.Proofs.BackEdges

set_option relaxedAutoImplicit false
set_option autoImplicit false

namespace ModuleDeps.EdgeMap

/-- One name has the other among its targets. -/
def Edge (edges : EdgeMap) (x y : String) : Prop :=
  y ∈ edges.targets x

/-- There is a walk of at least one edge from one name to the other. -/
def Reaches (edges : EdgeMap) : String → String → Prop :=
  Relation.TransGen edges.Edge

instance (edges : EdgeMap) : Trans edges.Reaches edges.Reaches edges.Reaches :=
  ⟨Relation.TransGen.trans⟩

/-- The names follow one another along edges, the first one from the given name.  Such a walk has as
many edges as there are names. -/
def IsWalkFrom (edges : EdgeMap) (m : String) (names : List String) : Prop :=
  (m :: names).IsChain edges.Edge

theorem isWalkFrom_nil (edges : EdgeMap) (m : String) : edges.IsWalkFrom m [] :=
  .singleton m

theorem isWalkFrom_cons {edges : EdgeMap} {m t : String} {names : List String} :
    edges.IsWalkFrom m (t :: names) ↔ edges.Edge m t ∧ edges.IsWalkFrom t names :=
  List.isChain_cons_cons

/-! ### Depths along edges -/

/-- The depth of a name; a name that does not occur has depth zero. -/
def depthAt (edges : EdgeMap) (x : String) : Nat :=
  (edges.depths.get? x).getD 0

/-- The greatest number that a list of names is given is at least the number of each of them. -/
theorem le_deepestOf (depth : String → Nat) {names : List String} {t : String} (h : t ∈ names) :
    depth t ≤ deepestOf depth names := by
  rw [deepestOf, List.foldl_max]
  exact Nat.le_trans (List.le_max?_getD_of_mem (List.mem_map_of_mem h)) (Nat.le_max_right _ _)

/-- Depths fall along edges that close no cycle. -/
theorem depthAt_lt_of_edge {edges : EdgeMap} {x y : String} (h : edges.Edge x y)
    (hc : ¬ Closes edges.cycles x y) : edges.depthAt y < edges.depthAt x := by
  have hx : x ∈ edges.depths.names :=
    mem_names_depths_iff.2 (Or.inl (mem_keys_of_mem_targets h))
  have hne : (edges.targets x).isEmpty = false := by
    simpa using List.ne_nil_of_mem h
  have hle := le_deepestOf (across edges.cycles edges.depths x) h
  rw [across_of_not_closes hc] at hle
  rw [depthAt, depthAt, get?_depths hx, depthFrom, hne, Option.getD_some]
  exact Nat.lt_succ_of_le hle

/-! ### Closed walks -/

section SomeEdges

variable {edges : EdgeMap} {r : String → String → Prop} (hr : ∀ {x y}, r x y → edges.Edge x y)
include hr

/-- Depths fall along a walk that uses some of the edges, or one of those that it uses closes a
cycle. -/
theorem depthAt_lt_or_exists_closes {x y : String} (h : Relation.TransGen r x y) :
    edges.depthAt y < edges.depthAt x ∨
      ∃ u v, Relation.ReflTransGen r x u ∧ r u v ∧ Closes edges.cycles u v ∧
        Relation.ReflTransGen r v y := by
  induction h with
  | @single y hxy =>
      by_cases hc : Closes edges.cycles x y
      · exact Or.inr ⟨x, y, .refl, hxy, hc, .refl⟩
      · exact Or.inl (depthAt_lt_of_edge (hr hxy) hc)
  | @tail y z hxy hyz ih =>
      by_cases hc : Closes edges.cycles y z
      · exact Or.inr ⟨y, z, hxy.to_reflTransGen, hyz, hc, .refl⟩
      · rcases ih with hlt | ⟨u, v, hxu, huv, hcuv, hvy⟩
        · exact Or.inl (Nat.lt_trans (depthAt_lt_of_edge (hr hyz) hc) hlt)
        · exact Or.inr ⟨u, v, hxu, huv, hcuv, hvy.tail hyz⟩

/-- If one comes back to a name along some of the edges, then one of them closes a cycle. -/
theorem exists_closes_of_transGen {x : String} (h : Relation.TransGen r x x) :
    ∃ u v, Relation.ReflTransGen r x u ∧ r u v ∧ Closes edges.cycles u v ∧
      Relation.ReflTransGen r v x := by
  rcases depthAt_lt_or_exists_closes hr h with hlt | hclosing
  · exact absurd hlt (Nat.lt_irrefl _)
  · exact hclosing

end SomeEdges

/-- A closed walk makes the search find a cycle. -/
theorem cycles_ne_nil_of_reaches_self {edges : EdgeMap} {x : String} (h : edges.Reaches x x) :
    edges.cycles ≠ [] := by
  obtain ⟨u, v, -, -, ⟨cycle, hcycle, -⟩, -⟩ := exists_closes_of_transGen id h
  exact List.ne_nil_of_mem hcycle

/-! ### Rings -/

/-- From a name of a ring of edges, walking on leads to the names that follow. -/
theorem reaches_add_of_ring {edges : EdgeMap} {names : Nat → String} {k : Nat}
    (hedge : ∀ i < k, edges.Edge (names i) (names ((i + 1) % k))) {i : Nat} (hi : i < k)
    (d : Nat) : edges.Reaches (names i) (names ((i + (d + 1)) % k)) := by
  induction d with
  | zero => exact .single (hedge i hi)
  | succ d ih =>
      have hlt : (i + (d + 1)) % k < k := Nat.mod_lt _ (Nat.zero_lt_of_lt hi)
      have hnext : ((i + (d + 1)) % k + 1) % k = (i + (d + 1 + 1)) % k := by
        rw [Nat.mod_add_mod, Nat.add_assoc i]
      exact .tail ih (hnext ▸ hedge _ hlt)

/-- Along a ring of edges, every name reaches every other one, and itself. -/
theorem reaches_of_ring {edges : EdgeMap} {names : Nat → String} {k : Nat}
    (hedge : ∀ i < k, edges.Edge (names i) (names ((i + 1) % k))) {i j : Nat} (hi : i < k)
    (hj : j < k) : edges.Reaches (names i) (names j) := by
  -- `j` lies `k + j - i` places behind `i`
  have hreach := reaches_add_of_ring hedge hi (k + j - i - 1)
  have hplace : (i + (k + j - i - 1 + 1)) % k = j := by
    have hsum : i + (k + j - i - 1 + 1) = k + j := by omega
    rw [hsum, Nat.add_mod_left, Nat.mod_eq_of_lt hj]
  rwa [hplace] at hreach

end ModuleDeps.EdgeMap
