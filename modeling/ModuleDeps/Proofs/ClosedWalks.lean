/-
No closed walk escapes the search for cycles.

The search never enters a name twice, so it reports few of the closed walks that there are.  What it
does report is enough to break them all: depths fall along every edge that closes no cycle, and a
walk that comes back to its start cannot fall all the way.  Hence each closed walk has among its
edges one that closes a reported cycle, and an edge map from which these edges are deleted has no
closed walk left.

Main definitions:

* `ModuleDeps.EdgeMap.opened` — the edge map without the edges that close one of the cycles.

Main results:

* `ModuleDeps.EdgeMap.exists_closes_of_isClosedWalk` — some edge of a closed walk closes a cycle;
* `ModuleDeps.EdgeMap.edge_opened_iff` — what is deleted, and what is not;
* `ModuleDeps.EdgeMap.cycles_eq_nil_iff` — there is a cycle to report exactly if there is a closed
  walk;
* `ModuleDeps.EdgeMap.cycles_break_closed_walks` — **the closing edges meet every closed walk**.
-/

import ModuleDeps.Proofs.CycleReports

set_option relaxedAutoImplicit false
set_option autoImplicit false

namespace ModuleDeps

/-- Looking up a name where every value has been changed, in a way that may depend on its name. -/
theorem lookupEntry_map {β γ : Type} (f : String → β → γ) (name : String)
    (es : List (String × β)) :
    lookupEntry name (es.map fun e => (e.1, f e.1 e.2)) = (lookupEntry name es).map (f name) := by
  induction es with
  | nil => rfl
  | cons e es ih =>
      rw [List.map_cons, lookupEntry, lookupEntry, ih]
      by_cases he : e.1 = name
      · simp [he]
      · simp [he]

namespace EdgeMap

instance (edges : EdgeMap) : DecidableRel edges.Edge := fun x y =>
  inferInstanceAs (Decidable (y ∈ edges.targets x))

/-! ### Closing edges -/

/-- Some edge of a closed walk closes a cycle. -/
theorem exists_closes_of_isClosedWalk {edges : EdgeMap} {names : List String}
    (h : edges.IsClosedWalk names) :
    ∃ x y, [x, y] <:+: names ∧ Closes edges.cycles x y := by
  obtain ⟨hwalk, t, inner, rfl⟩ := h
  -- of the edges only those of the walk are used, which leads back to its start
  have hedge : ∀ {x y}, [x, y] <:+: t :: (inner ++ [t]) → edges.Edge x y := by
    rintro x y ⟨front, rest, hsplit⟩
    exact List.isChain_iff_forall_rel_of_append_cons_cons.1 hwalk
      (hsplit.symm.trans (List.append_assoc front [x, y] rest))
  have hsteps : (t :: (inner ++ [t])).IsChain fun x y => [x, y] <:+: t :: (inner ++ [t]) := by
    refine List.isChain_iff_forall_rel_of_append_cons_cons.2 ?_
    intro x y front rest hsplit
    exact ⟨front, rest, by simp [hsplit]⟩
  have hself : Relation.TransGen (fun x y => [x, y] <:+: t :: (inner ++ [t])) t t :=
    List.rel_of_pairwise_cons (hsteps.imp fun _ _ hxy => .single hxy).pairwise (by simp)
  obtain ⟨x, y, -, hxy, hc, -⟩ := exists_closes_of_transGen hedge hself
  exact ⟨x, y, hxy, hc⟩

/-- There is a cycle to report exactly if there is a closed walk. -/
theorem cycles_eq_nil_iff {edges : EdgeMap} :
    edges.cycles = [] ↔ ∀ names, ¬ edges.IsClosedWalk names := by
  constructor
  · intro hnil names hwalk
    obtain ⟨x, y, -, cycle, hcycle, -⟩ := exists_closes_of_isClosedWalk hwalk
    rw [hnil] at hcycle
    exact absurd hcycle List.not_mem_nil
  · intro hnone
    refine List.eq_nil_iff_forall_not_mem.2 ?_
    intro cycle hcycle
    exact hnone cycle (isClosedWalk_of_mem_cycles hcycle)

/-! ### Deleting the closing edges -/

/-- The edge map without the edges that close one of the cycles. -/
def opened (edges : EdgeMap) (cycles : List (List String)) : EdgeMap where
  entries := edges.entries.map fun e => (e.1, e.2.filter fun t => ¬ Closes cycles e.1 t)
  nodup := by simpa [Function.comp_def] using edges.nodup

theorem targets_opened (edges : EdgeMap) (cycles : List (List String)) (x : String) :
    (edges.opened cycles).targets x = (edges.targets x).filter fun t => ¬ Closes cycles x t := by
  have hget : (edges.opened cycles).get? x =
      (edges.get? x).map (List.filter fun t => ¬ Closes cycles x t) :=
    lookupEntry_map (fun x => List.filter fun t => ¬ Closes cycles x t) x edges.entries
  rw [targets, targets, hget]
  cases edges.get? x with
  | none => rfl
  | some ts => rfl

/-- Just the closing edges are deleted. -/
theorem edge_opened_iff {edges : EdgeMap} {cycles : List (List String)} {x y : String} :
    (edges.opened cycles).Edge x y ↔ edges.Edge x y ∧ ¬ Closes cycles x y := by
  rw [Edge, targets_opened, List.mem_filter, decide_eq_true_eq, Edge]

/-- Without the edges that close the reported cycles there is no closed walk. -/
theorem not_isClosedWalk_opened (edges : EdgeMap) (names : List String) :
    ¬ (edges.opened edges.cycles).IsClosedWalk names := by
  rintro ⟨hwalk, hends⟩
  have hwalk' : edges.IsClosedWalk names :=
    ⟨hwalk.imp fun x y hxy => (edge_opened_iff.1 hxy).1, hends⟩
  obtain ⟨x, y, ⟨front, rest, hsplit⟩, hc⟩ := exists_closes_of_isClosedWalk hwalk'
  -- the walk uses only edges that are left, but this one has been deleted
  have hxy := List.isChain_iff_forall_rel_of_append_cons_cons.1 hwalk
    (show names = front ++ x :: y :: rest by simp [← hsplit])
  exact (edge_opened_iff.1 hxy).2 hc

/-- **The closing edges meet every closed walk.**  Of each closed walk some two consecutive names
are the last two names of a cycle that is reported.  So once these edges are deleted, and no others,
no closed walk is left, and nothing is reported exactly if there was none. -/
theorem cycles_break_closed_walks (edges : EdgeMap) :
    (∀ names, edges.IsClosedWalk names →
      ∃ x y, [x, y] <:+: names ∧ ∃ cycle ∈ edges.cycles, [x, y] <:+ cycle) ∧
    ((∀ x y, (edges.opened edges.cycles).Edge x y ↔
        edges.Edge x y ∧ ¬ ∃ cycle ∈ edges.cycles, [x, y] <:+ cycle) ∧
      ∀ names, ¬ (edges.opened edges.cycles).IsClosedWalk names) ∧
    (edges.cycles = [] ↔ ∀ names, ¬ edges.IsClosedWalk names) := by
  refine ⟨?_, ⟨?_, not_isClosedWalk_opened edges⟩, cycles_eq_nil_iff⟩
  · intro names hwalk
    exact exists_closes_of_isClosedWalk hwalk
  · intro x y
    exact edge_opened_iff

/-- Of two closed walks with a common edge only one is reported, and the common edge closes it. -/
theorem cycles_break_unreported_walk :
    let edges : EdgeMap := .ofList [("a", ["b", "c"]), ("b", ["d"]), ("c", ["d"]), ("d", ["a"])]
    let names := ["a", "c", "d", "a"]
    edges.IsClosedWalk names ∧ edges.cycles = [["a", "b", "d", "a"]] ∧
      ∃ x y, [x, y] <:+: names ∧ ∃ cycle ∈ edges.cycles, [x, y] <:+ cycle := by
  intro edges names
  have hwalk : edges.IsClosedWalk names := ⟨by decide +kernel, "a", ["c", "d"], rfl⟩
  exact ⟨hwalk, by decide +kernel, (cycles_break_closed_walks edges).1 names hwalk⟩

end EdgeMap

end ModuleDeps
