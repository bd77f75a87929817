/-
The two reports about cycles agree.

A graph tells of circular imports twice: by the cycles that the search finds, and by the groups of
names that reach each other.  The search never looks at groups, and the groups are computed without
the search.

Every cycle that is found is a closed walk, because the names on the stack are joined by edges; so
its names reach each other, and one group holds them all.  For the other direction take any name of
a group.  It lies on a closed walk, and some edge of this walk closes a cycle of the search.  The
names of that cycle reach each other, the edge ties them to the walk, and hence the group has them
all.

Main definitions:

* `ModuleDeps.EdgeMap.IsClosedWalk` — names joined by edges, with the same name at both ends.

Main results:

* `ModuleDeps.EdgeMap.isClosedWalk_of_mem_cycles` — every cycle that is found is a closed walk;
* `ModuleDeps.EdgeMap.exists_cycle_in_group` — every group has all names of some cycle;
* `ModuleDeps.Graph.cycles_agree_with_cycleGroups` — **the two reports agree**.
-/

import Mathlib.Data.List.Chain
import ModuleDeps.Graph.Basic
import ModuleDeps.Proofs.Groups

set_option relaxedAutoImplicit false
set_option autoImplicit false

namespace ModuleDeps

namespace EdgeMap

/-! ### Closed walks -/

/-- Each name has the next one among its targets, and the last name is the first one. -/
def IsClosedWalk (edges : EdgeMap) (names : List String) : Prop :=
  names.IsChain edges.Edge ∧ ∃ t inner, names = t :: (inner ++ [t])

theorem IsClosedWalk.ne_nil {edges : EdgeMap} {names : List String}
    (h : edges.IsClosedWalk names) : names ≠ [] := by
  obtain ⟨-, t, inner, rfl⟩ := h
  exact List.cons_ne_nil _ _

/-- The names of a closed walk reach each other, and themselves. -/
theorem IsClosedWalk.reaches {edges : EdgeMap} {names : List String}
    (h : edges.IsClosedWalk names) {x y : String} (hx : x ∈ names) (hy : y ∈ names) :
    edges.Reaches x y := by
  obtain ⟨hchain, t, inner, rfl⟩ := h
  -- along the walk, every name reaches all that come later
  have hlater : (t :: (inner ++ [t])).Pairwise edges.Reaches :=
    List.isChain_iff_pairwise.1 (hchain.imp fun _ _ hstep => .single hstep)
  rw [List.pairwise_cons, List.pairwise_append] at hlater
  obtain ⟨hfirst, -, -, hlast⟩ := hlater
  have hself : edges.Reaches t t := hfirst t (by simp)
  have hto : ∀ z ∈ t :: (inner ++ [t]), edges.Reaches z t := by
    intro z hz
    rcases List.mem_cons.1 hz with rfl | hz
    · exact hself
    · rcases List.mem_append.1 hz with hz | hz
      · exact hlast z hz t List.mem_cons_self
      · rwa [List.mem_singleton.1 hz]
  have hfrom : ∀ z ∈ t :: (inner ++ [t]), edges.Reaches t z := by
    intro z hz
    rcases List.mem_cons.1 hz with rfl | hz
    · exact hself
    · exact hfirst z hz
  exact (hto x hx).trans (hfrom y hy)

/-! ### Cycles that the search finds -/

/-- From a name of a path on, the path starts with this name and is not changed. -/
theorem exists_pathFrom_eq_cons {t : String} {path : List String} (ht : t ∈ path) :
    ∃ inner, pathFrom t path = t :: inner ∧ pathFrom t path <:+ path := by
  cases hi : path.findIdx? (· == t) with
  | none =>
      have hne := List.findIdx?_eq_none_iff.1 hi t ht
      simp at hne
  | some i =>
      obtain ⟨hlt, hname, -⟩ := List.findIdx?_eq_some_iff_getElem.1 hi
      have hdrop : pathFrom t path = path.drop i := by rw [pathFrom, hi, Option.getD_some]
      refine ⟨path.drop (i + 1), ?_, ?_⟩
      · rw [hdrop, List.drop_eq_getElem_cons hlt, beq_iff_eq.1 hname]
      · rw [hdrop]
        exact List.drop_suffix i path

/-- Each name on the stack is a target of the name below it. -/
theorem StackOk.isChain {edges : EdgeMap} {found : List (List String)} {known : NameTable Nat}
    {stack : List DepthFrame} {child : String} (h : StackOk edges found known [child] stack) :
    (child :: stack.map DepthFrame.name).IsChain fun x y => edges.Edge y x := by
  induction stack generalizing child with
  | nil => exact .singleton child
  | cons frame stack ih =>
      obtain ⟨⟨seen, htargets, -, -⟩, hstack⟩ := h
      have hedge : edges.Edge frame.name child := by
        rw [Edge, htargets]
        simp
      exact List.isChain_cons_cons.2 ⟨hedge, ih hstack⟩

/-- A joint move closes walks only: if the cycles found so far are closed walks, so is the new
one. -/
theorem isClosedWalk_of_joint {edges : EdgeMap} {found found' : List (List String)}
    {d d' : DepthSearch} (hj : Joint edges found d found' d') (hm : Measured edges found d)
    (h : ∀ cycle ∈ found, edges.IsClosedWalk cycle) :
    ∀ cycle ∈ found', edges.IsClosedWalk cycle := by
  cases hj with
  | skipRoot hk hv => exact h
  | enterRoot hk hv => exact h
  | leave => exact h
  | @close roots name t rest deepest stack visited known hk hv ho =>
      intro cycle hcycle
      rcases List.mem_cons.1 hcycle with rfl | hcycle
      · -- the target is a child of the innermost name, so it prolongs the path of the stack
        have hchild : StackOk edges found known [t] (⟨name, rest, deepest⟩ :: stack) :=
          ⟨hm.stack.1.next, hm.stack.2⟩
        have hpath : ((name :: stack.map DepthFrame.name).reverse ++ [t]).IsChain edges.Edge := by
          have := List.isChain_reverse.2 hchild.isChain
          rwa [List.reverse_cons] at this
        obtain ⟨inner, hinner, front, hfront⟩ :=
          exists_pathFrom_eq_cons (List.mem_reverse.2 ho)
        refine ⟨hpath.suffix ⟨front, ?_⟩, t, inner, ?_⟩
        · rw [← List.append_assoc, hfront]
        · rw [hinner, List.cons_append]
      · exact h cycle hcycle
  | pass hv ho => exact h
  | leaf hk hv => exact h
  | enter hk hv ho => exact h

/-- Every cycle that the search finds is a closed walk. -/
theorem isClosedWalk_of_mem_cycles {edges : EdgeMap} {cycle : List String}
    (h : cycle ∈ edges.cycles) : edges.IsClosedWalk cycle := by
  obtain ⟨found, hfound, -, -, hwalks⟩ := exists_found_of_joint edges
    (Q := fun found _ => ∀ cycle ∈ found, edges.IsClosedWalk cycle) (by simp)
    fun hj _ hm hwalks => isClosedWalk_of_joint hj hm hwalks
  rw [hfound, List.mem_reverse] at h
  exact hwalks cycle h

/-! ### Cycles and groups -/

/-- One group, and only one, has all names of a closed walk. -/
theorem existsUnique_group_of_isClosedWalk {edges : EdgeMap} {names : List String}
    (h : edges.IsClosedWalk names) :
    ∃! group, group ∈ edges.groups ∧ ∀ x ∈ names, x ∈ group := by
  obtain ⟨t, ht⟩ := List.exists_mem_of_ne_nil names h.ne_nil
  obtain ⟨group, hgroup, hmem⟩ := exists_group_of_reaches_self (h.reaches ht ht)
  have hall : ∀ x ∈ names, x ∈ group := by
    intro x hx
    exact (hmem x).2 ⟨h.reaches ht hx, h.reaches hx ht⟩
  refine ⟨group, ⟨hgroup, hall⟩, ?_⟩
  rintro other ⟨hother, hnames⟩
  exact eq_of_mem_groups hother hgroup (hnames t ht) (hall t ht)

/-- Every group has all names of some cycle that the search finds. -/
theorem exists_cycle_in_group {edges : EdgeMap} {group : List String} (h : group ∈ edges.groups) :
    ∃ cycle ∈ edges.cycles, ∀ x ∈ cycle, x ∈ group := by
  obtain ⟨x, hxx, hmem⟩ := exists_mem_iff_of_mem_groups h
  obtain ⟨u, v, hxu, huv, ⟨cycle, hcycle, hends⟩, hvx⟩ := exists_closes_of_transGen id hxx
  have hu : u ∈ cycle := hends.subset List.mem_cons_self
  have hwalk := isClosedWalk_of_mem_cycles hcycle
  -- the source of the closing edge is on the walk through `x`
  have hxu' : edges.Reaches x u := Relation.TransGen.trans_left hxx hxu
  have hux : edges.Reaches u x := Relation.TransGen.head' huv hvx
  refine ⟨cycle, hcycle, fun z hz => (hmem z).2 ⟨?_, ?_⟩⟩
  · exact hxu'.trans (hwalk.reaches hu hz)
  · exact (hwalk.reaches hz hu).trans hux

end EdgeMap

namespace Graph

/-- **The two reports agree.**  If the cycles of a graph are those of its internal edges, then every
cycle has at least one name and lies in one group, and in no other one; every group has all names of
some cycle; and so there are cycles exactly when there are groups. -/
theorem cycles_agree_with_cycleGroups (g : Graph) (hg : g.cycles = g.internal.cycles) :
    (∀ cycle ∈ g.cycles, cycle ≠ [] ∧
      ∃! group, group ∈ g.cycleGroups ∧ ∀ x ∈ cycle, x ∈ group) ∧
    (∀ group ∈ g.cycleGroups, ∃ cycle ∈ g.cycles, ∀ x ∈ cycle, x ∈ group) ∧
    (g.cycles = [] ↔ g.cycleGroups = []) := by
  have hcycle : ∀ cycle ∈ g.cycles, cycle ≠ [] ∧
      ∃! group, group ∈ g.cycleGroups ∧ ∀ x ∈ cycle, x ∈ group := by
    intro cycle h
    rw [hg] at h
    have hwalk := EdgeMap.isClosedWalk_of_mem_cycles h
    exact ⟨hwalk.ne_nil, EdgeMap.existsUnique_group_of_isClosedWalk hwalk⟩
  have hgroup : ∀ group ∈ g.cycleGroups, ∃ cycle ∈ g.cycles, ∀ x ∈ cycle, x ∈ group := by
    intro group h
    rw [hg]
    exact EdgeMap.exists_cycle_in_group h
  refine ⟨hcycle, hgroup, ?_⟩
  constructor
  · intro hnil
    refine List.eq_nil_iff_forall_not_mem.2 fun group h => ?_
    obtain ⟨cycle, hmem, -⟩ := hgroup group h
    rw [hnil] at hmem
    exact absurd hmem List.not_mem_nil
  · intro hnil
    refine List.eq_nil_iff_forall_not_mem.2 fun cycle h => ?_
    obtain ⟨-, group, ⟨hmem, -⟩, -⟩ := hcycle cycle h
    rw [hnil] at hmem
    exact absurd hmem List.not_mem_nil

/-- Two modules that import each other, with a module outside that imports one of them, and a module
that imports itself. -/
theorem cycles_agree_on_pair_and_loop :
    let g : Graph :=
      { Graph.empty with
        internal := .ofList [("d", ["a"]), ("a", ["b"]), ("b", ["a", "c"]), ("c", ["c"])]
        cycles := [["a", "b", "a"], ["c", "c"]] }
    g.cycles = g.internal.cycles ∧
    (∀ cycle ∈ g.cycles, cycle ≠ [] ∧
      ∃! group, group ∈ g.cycleGroups ∧ ∀ x ∈ cycle, x ∈ group) ∧
    (∀ group ∈ g.cycleGroups, ∃ cycle ∈ g.cycles, ∀ x ∈ cycle, x ∈ group) ∧
    (g.cycles = [] ↔ g.cycleGroups = []) := by
  intro g
  have hg : g.cycles = g.internal.cycles := by decide +kernel
  exact ⟨hg, cycles_agree_with_cycleGroups g hg⟩

end Graph

end ModuleDeps
