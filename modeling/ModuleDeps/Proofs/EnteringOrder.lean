/-
The order in which the search for cycles enters names.

A name is entered once, and then it stands on the stack above the names that were entered before it
and have not been left.  So the stack, and with it every cycle that is cut out of it, has its names
in the order in which they were entered.  This alone excludes that a cycle runs through a name
twice; and since two ways to walk around the same ring would put its names in different orders, it
also excludes that a ring is reported a second time from another of its names.

What is left is that one cycle might be reported twice as it stands.  Every cycle is reported when
its last edge is looked at, and the search looks at each target of a name once.

Main definitions:

* `ModuleDeps.EdgeMap.closingEdge?` — the last edge of a cycle;
* `ModuleDeps.EdgeMap.CycleSearch.InOrder` — names stand in the order in which they were entered;
* `ModuleDeps.EdgeMap.CycleSearch.Fresh` — the edges that are still to be looked at close no cycle
  yet.

Main results:

* `ModuleDeps.EdgeMap.cycles_are_simple` — **every cycle is a closed walk through distinct keys**;
* `ModuleDeps.EdgeMap.cycles_reported_once` — **no cycle is reported twice**.
-/

import Mathlib.Data.List.Rotate
import ModuleDeps.Proofs.CycleMoves
import ModuleDeps.Proofs.CycleReports
import ModuleDeps.Proofs.GraphImage
import ModuleDeps.Proofs.Tallies

set_option relaxedAutoImplicit false
set_option autoImplicit false

namespace ModuleDeps.EdgeMap

namespace CycleSearch

/-! ### Names in the order of entering -/

/-- The names on the stack, the innermost first. -/
def names (s : CycleSearch) : List String :=
  s.stack.map CycleFrame.name

/-- Names are entered once, and they stand on the stack and in the cycles in the order in which they
were entered. -/
structure InOrder (s : CycleSearch) : Prop where
  /-- The names kept beside the stack are those on the stack. -/
  onStack : s.onStack = s.names
  /-- No name is entered twice. -/
  visited : s.visited.Nodup
  /-- The last name entered stands first, on the stack as among the names entered. -/
  names : s.names.Sublist s.visited
  /-- Cycles are written the other way round. -/
  found : ∀ cycle ∈ s.found, cycle.dropLast.Sublist s.visited.reverse

theorem InOrder.nodup_names {s : CycleSearch} (h : s.InOrder) : s.names.Nodup :=
  h.visited.sublist h.names

theorem inOrder_start (edges : EdgeMap) : (start edges).InOrder where
  onStack := rfl
  visited := List.nodup_nil
  names := List.Sublist.refl []
  found := by simp [start]

/-- A new name is the last one entered, and the innermost one. -/
theorem InOrder.enter {s : CycleSearch} (h : s.InOrder) (edges : EdgeMap) {name : String}
    (hv : name ∉ s.visited) : (s.enter edges name).InOrder where
  onStack := congrArg (name :: ·) h.onStack
  visited := List.nodup_cons.2 ⟨hv, h.visited⟩
  names := h.names.cons_cons name
  found := by
    intro cycle hc
    refine (h.found cycle hc).trans ?_
    exact (List.sublist_cons_self name s.visited).reverse

/-- Moves keep the names in order. -/
theorem InOrder.move {edges : EdgeMap} {s s' : CycleSearch} (hm : Move edges s s')
    (h : s.InOrder) : s'.InOrder := by
  obtain ⟨honStack, hvisited, hnames, hfound⟩ := h
  cases hm with
  | skipRoot hv => exact ⟨honStack, hvisited, hnames, hfound⟩
  | @enterRoot root roots visited onStack found hv =>
      exact InOrder.enter (s := ⟨roots, [], visited, onStack, found⟩)
        ⟨honStack, hvisited, hnames, hfound⟩ edges hv
  | @leave roots name stack visited onStack found =>
      have hcons : onStack = name :: stack.map CycleFrame.name := honStack
      refine ⟨?_, hvisited, (List.sublist_cons_self name _).trans hnames, hfound⟩
      rw [hcons, List.erase_cons_head]
      rfl
  | @close roots name t rest stack visited onStack found hk ho =>
      refine ⟨honStack, hvisited, hnames, fun cycle hc => ?_⟩
      rcases List.mem_cons.1 hc with rfl | hc
      · -- without its last name, the new cycle is the end of the path
        rw [List.dropLast_concat]
        exact (List.drop_sublist _ _).trans hnames.reverse
      · exact hfound cycle hc
  | pass hpass => exact ⟨honStack, hvisited, hnames, hfound⟩
  | @enter roots name t rest stack visited onStack found hk ho hv =>
      exact InOrder.enter (s := ⟨roots, ⟨name, rest⟩ :: stack, visited, onStack, found⟩)
        ⟨honStack, hvisited, hnames, hfound⟩ edges hv

end CycleSearch

/-- Some list of names, in which none stands twice, has the names of every cycle in their order. -/
theorem exists_order_of_cycles (edges : EdgeMap) :
    ∃ order : List String, order.Nodup ∧
      ∀ cycle ∈ edges.cycles, cycle.dropLast.Sublist order := by
  have h : ((CycleSearch.start edges).run edges).InOrder :=
    CycleSearch.run_induction (fun hm h => h.move hm) (CycleSearch.inOrder_start edges)
  refine ⟨_, List.nodup_reverse.2 h.visited, fun cycle hc => ?_⟩
  exact h.found cycle (List.mem_reverse.1 hc)

/-! ### Cycles are simple -/

/-- **Every cycle is a closed walk through distinct keys.**  It has the same name at both ends, and
at least one edge; without its last name, it has no name twice, and only keys; and each name has the
next one among its targets. -/
theorem cycles_are_simple (edges : EdgeMap) :
    ∀ cycle ∈ edges.cycles, 2 ≤ cycle.length ∧ cycle.head? = cycle.getLast? ∧
      cycle.dropLast.Nodup ∧ (∀ x ∈ cycle.dropLast, x ∈ edges.keys) ∧
      ∀ x y, [x, y] <:+: cycle → y ∈ edges.targets x := by
  intro cycle hc
  have hwalk := isClosedWalk_of_mem_cycles hc
  obtain ⟨order, horder, hsub⟩ := edges.exists_order_of_cycles
  have hkeys : ∀ x ∈ cycle.dropLast, x ∈ edges.keys := by
    intro x hx
    have hxx := hwalk.reaches (List.mem_of_mem_dropLast hx) (List.mem_of_mem_dropLast hx)
    obtain ⟨y, hxy, -⟩ := Relation.TransGen.head'_iff.1 hxx
    exact mem_keys_of_mem_targets hxy
  have hedges : ∀ x y, [x, y] <:+: cycle → y ∈ edges.targets x := by
    rintro x y ⟨front, rest, hsplit⟩
    exact List.isChain_iff_forall_rel_of_append_cons_cons.1 hwalk.1
      (show cycle = front ++ x :: y :: rest by simp [← hsplit])
  obtain ⟨-, t, inner, hends⟩ := hwalk
  refine ⟨?_, ?_, horder.sublist (hsub cycle hc), hkeys, hedges⟩
  · simp [hends]
  · rw [hends, List.head?_cons, ← List.cons_append, List.getLast?_concat]

/-- Two cycles share an edge; a module outside leads to both. -/
theorem cycles_are_simple_on_shared_edge :
    let edges : EdgeMap := .ofList [("d", ["c"]), ("c", ["a"]), ("a", ["b", "c"]), ("b", ["c"])]
    let cycle := ["c", "a", "b", "c"]
    cycle ∈ edges.cycles ∧ 2 ≤ cycle.length ∧ cycle.head? = cycle.getLast? ∧
      cycle.dropLast.Nodup ∧ (∀ x ∈ cycle.dropLast, x ∈ edges.keys) ∧
      ∀ x y, [x, y] <:+: cycle → y ∈ edges.targets x := by
  intro edges cycle
  have hc : cycle ∈ edges.cycles := by decide +kernel
  exact ⟨hc, cycles_are_simple edges cycle hc⟩

/-! ### Closing edges -/

/-- The last edge of a cycle, given by its last two names. -/
def closingEdge? (cycle : List String) : Option (String × String) :=
  match cycle.reverse with
  | y :: x :: _ => some (x, y)
  | _ => none

theorem closingEdge?_eq_some_iff {cycle : List String} {x y : String} :
    closingEdge? cycle = some (x, y) ↔ [x, y] <:+ cycle := by
  rw [← List.reverse_prefix, closingEdge?]
  match cycle.reverse with
  | [] => simp
  | [u] => simp
  | v :: u :: front => simp [and_comm, eq_comm]

theorem closes_iff_closingEdge? {cycles : List (List String)} {x y : String} :
    Closes cycles x y ↔ some (x, y) ∈ cycles.map closingEdge? := by
  simp only [Closes, List.mem_map, closingEdge?_eq_some_iff]

namespace CycleSearch

/-- The edges that are still to be looked at close no cycle yet, and so no edge closes two. -/
structure Fresh (edges : EdgeMap) (s : CycleSearch) : Prop where
  /-- What a frame has still to look at is the end of the targets of its name. -/
  rests : ∀ frame ∈ s.stack, frame.rest <:+ edges.targets frame.name
  /-- Closing edges start at names that have been entered. -/
  entered : ∀ x y, Closes s.found x y → x ∈ s.visited
  /-- No edge ahead of a frame closes a cycle. -/
  ahead : ∀ frame ∈ s.stack, ∀ t ∈ frame.rest, ¬ Closes s.found frame.name t
  /-- No edge closes two cycles. -/
  distinct : (s.found.map closingEdge?).Nodup

theorem fresh_start (edges : EdgeMap) : Fresh edges (start edges) where
  rests := by simp [start]
  entered := by simp [start]
  ahead := by simp [start]
  distinct := List.nodup_nil

/-- A new name has no closing edge. -/
theorem Fresh.enter {edges : EdgeMap} {s : CycleSearch} (h : Fresh edges s) {name : String}
    (hv : name ∉ s.visited) : Fresh edges (s.enter edges name) where
  rests := List.forall_mem_cons.2 ⟨List.suffix_refl _, h.rests⟩
  entered := fun x y hxy => List.mem_cons_of_mem _ (h.entered x y hxy)
  ahead := List.forall_mem_cons.2 ⟨fun t _ hc => hv (h.entered name t hc), h.ahead⟩
  distinct := h.distinct

section Look

variable {edges : EdgeMap} {roots : List String} {name t : String} {rest : List String}
  {stack : List CycleFrame} {visited onStack : List String} {found : List (List String)}

/-- A target of the innermost name is passed. -/
theorem Fresh.pass (h : Fresh edges ⟨roots, ⟨name, t :: rest⟩ :: stack, visited, onStack, found⟩) :
    Fresh edges ⟨roots, ⟨name, rest⟩ :: stack, visited, onStack, found⟩ where
  rests := by
    obtain ⟨hname, hstack⟩ := List.forall_mem_cons.1 h.rests
    exact List.forall_mem_cons.2 ⟨(List.suffix_cons t rest).trans hname, hstack⟩
  entered := h.entered
  ahead := by
    obtain ⟨hname, hstack⟩ := List.forall_mem_cons.1 h.ahead
    exact List.forall_mem_cons.2 ⟨fun u hu => hname u (List.mem_cons_of_mem _ hu), hstack⟩
  distinct := h.distinct

/-- A target of the innermost name closes a cycle.  The edge has closed none before, and it lies
ahead no longer, if no target is repeated and no name stands twice on the stack. -/
theorem Fresh.close (h : Fresh edges ⟨roots, ⟨name, t :: rest⟩ :: stack, visited, onStack, found⟩)
    (ht : (edges.targets name).Nodup) (hn : (name :: stack.map CycleFrame.name).Nodup)
    (hv : name ∈ visited) :
    Fresh edges ⟨roots, ⟨name, rest⟩ :: stack, visited, onStack,
      (pathFrom t (name :: stack.map CycleFrame.name).reverse ++ [t]) :: found⟩ where
  rests := h.pass.rests
  entered := by
    intro x y hxy
    rcases closes_path_cons.1 hxy with ⟨rfl, -⟩ | hxy
    · exact hv
    · exact h.entered x y hxy
  ahead := by
    refine List.forall_mem_cons.2 ⟨fun u hu hc => ?_, fun frame hf u hu hc => ?_⟩
    · rcases closes_path_cons.1 hc with ⟨-, rfl⟩ | hc
      · have hrest : (u :: rest).Nodup := ht.sublist (h.rests _ List.mem_cons_self).sublist
        exact (List.nodup_cons.1 hrest).1 hu
      · exact h.pass.ahead _ List.mem_cons_self u hu hc
    · rcases closes_path_cons.1 hc with ⟨hname, -⟩ | hc
      · exact (List.nodup_cons.1 hn).1 (hname ▸ List.mem_map_of_mem hf)
      · exact h.ahead frame (List.mem_cons_of_mem _ hf) u hu hc
  distinct := by
    have hnew : closingEdge? (pathFrom t (name :: stack.map CycleFrame.name).reverse ++ [t]) =
        some (name, t) := by
      obtain ⟨front, hfront⟩ := pathFrom_reverse_cons t name (stack.map CycleFrame.name)
      rw [closingEdge?_eq_some_iff, hfront, List.append_assoc]
      exact ⟨front, rfl⟩
    rw [List.map_cons, hnew, List.nodup_cons, ← closes_iff_closingEdge?]
    exact ⟨h.ahead _ List.mem_cons_self t List.mem_cons_self, h.distinct⟩

end Look

/-- Moves keep the edges ahead fresh, if no target is repeated. -/
theorem Fresh.move {edges : EdgeMap} (ht : ∀ x, (edges.targets x).Nodup) {s s' : CycleSearch}
    (hm : Move edges s s') (ho : s.InOrder) (h : Fresh edges s) : Fresh edges s' := by
  cases hm with
  | skipRoot hv => exact ⟨h.rests, h.entered, h.ahead, h.distinct⟩
  | @enterRoot root roots visited onStack found hv =>
      exact Fresh.enter (s := ⟨roots, [], visited, onStack, found⟩)
        ⟨h.rests, h.entered, h.ahead, h.distinct⟩ hv
  | leave =>
      exact ⟨(List.forall_mem_cons.1 h.rests).2, h.entered, (List.forall_mem_cons.1 h.ahead).2,
        h.distinct⟩
  | close hk hon =>
      exact h.close (ht _) ho.nodup_names (ho.names.subset List.mem_cons_self)
  | pass hpass => exact h.pass
  | @enter roots name t rest stack visited onStack found hk hon hv => exact h.pass.enter hv

end CycleSearch

/-! ### No target twice -/

/-- No key has a target twice. -/
def HasDistinctTargets (edges : EdgeMap) : Prop :=
  ∀ e ∈ edges.entries, e.2.Nodup

instance (edges : EdgeMap) : Decidable edges.HasDistinctTargets :=
  inferInstanceAs (Decidable (∀ e ∈ edges.entries, e.2.Nodup))

theorem HasDistinctTargets.nodup_targets {edges : EdgeMap} (h : edges.HasDistinctTargets)
    (x : String) : (edges.targets x).Nodup := by
  cases hx : edges.get? x with
  | none => simp [targets, hx]
  | some ts =>
      rw [targets_of_get? hx]
      exact h (x, ts) (mem_of_lookupEntry hx)

/-- A target that is added is a new one, or nothing changes. -/
theorem HasDistinctTargets.add {edges : EdgeMap} (h : edges.HasDistinctTargets)
    (key target : String) : (edges.add key target).1.HasDistinctTargets := by
  intro e he
  rw [← targets_of_mem_entries he, targets_add]
  split
  · next hnew => exact List.nodup_append_comm.1 (List.nodup_cons.2 ⟨hnew.2, h.nodup_targets e.1⟩)
  · exact h.nodup_targets e.1

/-! ### No cycle twice -/

/-- No edge closes two of the cycles, if no key has a target twice. -/
theorem nodup_closingEdge? {edges : EdgeMap} (ht : edges.HasDistinctTargets) :
    (edges.cycles.map closingEdge?).Nodup := by
  have h := CycleSearch.run_induction (P := fun s => s.InOrder ∧ CycleSearch.Fresh edges s)
    (fun hm h => ⟨h.1.move hm, h.2.move ht.nodup_targets hm h.1⟩)
    ⟨CycleSearch.inOrder_start edges, CycleSearch.fresh_start edges⟩
  rw [cycles, List.map_reverse]
  exact List.nodup_reverse.2 h.2.distinct

/-- The closing edge of a cycle is an edge. -/
theorem exists_closingEdge?_eq {edges : EdgeMap} {cycle : List String} (h : cycle ∈ edges.cycles) :
    ∃ e ∈ edges.pairs, closingEdge? cycle = some e := by
  obtain ⟨hchain, t, inner, rfl⟩ := isClosedWalk_of_mem_cycles h
  obtain ⟨front, x, hlast⟩ := (List.eq_nil_or_concat (t :: inner)).resolve_left
    (List.cons_ne_nil t inner)
  have hends : [x, t] <:+ t :: (inner ++ [t]) :=
    ⟨front, by rw [← List.cons_append, hlast, List.concat_eq_append, List.append_assoc]; rfl⟩
  have hedge : edges.Edge x t := List.isChain_pair.1 (hchain.suffix hends)
  exact ⟨(x, t), mem_pairs_iff.2 hedge, closingEdge?_eq_some_iff.2 hends⟩

/-- Cycles whose names can be rotated into each other are equal. -/
theorem eq_of_isRotated {edges : EdgeMap} {cycle cycle' : List String} (h : cycle ∈ edges.cycles)
    (h' : cycle' ∈ edges.cycles) (hrot : cycle.dropLast.IsRotated cycle'.dropLast) :
    cycle = cycle' := by
  obtain ⟨order, horder, hsub⟩ := edges.exists_order_of_cycles
  -- both have the same names, and in the same order
  have heq : cycle.dropLast = cycle'.dropLast :=
    (List.Nodup.perm_iff_eq_of_sublist horder (hsub cycle h) (hsub cycle' h')).1 hrot.perm
  obtain ⟨-, t, inner, rfl⟩ := isClosedWalk_of_mem_cycles h
  obtain ⟨-, t', inner', rfl⟩ := isClosedWalk_of_mem_cycles h'
  rw [← List.cons_append, ← List.cons_append, List.dropLast_concat, List.dropLast_concat] at heq
  obtain ⟨rfl, rfl⟩ := List.cons.inj heq
  rfl

/-- **No cycle is reported twice**, if no key has a target twice, which holds as long as edges are
added one by one.  Cycles at different places are closed by different edges of the edge map, and
without their last names they are no rotations of each other.  So there are at most as many cycles
as edges. -/
theorem cycles_reported_once (edges : EdgeMap) (ht : edges.HasDistinctTargets) :
    (∀ key target, (edges.add key target).1.HasDistinctTargets) ∧
    (∀ cycle ∈ edges.cycles, ∃ e ∈ edges.pairs, closingEdge? cycle = some e) ∧
    (∀ i j (hi : i < edges.cycles.length) (hj : j < edges.cycles.length), i ≠ j →
      closingEdge? edges.cycles[i] ≠ closingEdge? edges.cycles[j] ∧
      ¬ edges.cycles[i].dropLast.IsRotated edges.cycles[j].dropLast) ∧
    edges.cycles.length ≤ edges.pairs.length := by
  have hnodup := nodup_closingEdge? ht
  refine ⟨ht.add, fun cycle h => exists_closingEdge?_eq h, fun i j hi hj hij => ?_, ?_⟩
  · have hne : closingEdge? edges.cycles[i] ≠ closingEdge? edges.cycles[j] := by
      intro heq
      have hsame : edges.cycles[i] = edges.cycles[j] :=
        List.inj_on_of_nodup_map hnodup (List.getElem_mem hi) (List.getElem_mem hj) heq
      exact hij ((List.Nodup.getElem_inj_iff hnodup.of_map).1 hsame)
    refine ⟨hne, fun hrot => hne ?_⟩
    rw [eq_of_isRotated (List.getElem_mem hi) (List.getElem_mem hj) hrot]
  · have hsub : edges.cycles.map closingEdge? ⊆ edges.pairs.map some := by
      intro e he
      obtain ⟨cycle, hc, rfl⟩ := List.mem_map.1 he
      obtain ⟨e, hmem, heq⟩ := exists_closingEdge?_eq hc
      exact List.mem_map.2 ⟨e, hmem, heq.symm⟩
    have hle := (List.subperm_of_subset hnodup hsub).length_le
    rwa [List.length_map, List.length_map] at hle

/-- Three cycles, of which any two share an edge or a name. -/
theorem cycles_reported_once_on_shared_edges :
    let edges : EdgeMap := .ofList
      [("d", ["c"]), ("c", ["a", "b"]), ("a", ["b", "c"]), ("b", ["c", "a"])]
    edges.HasDistinctTargets ∧
    edges.cycles = [["c", "a", "b", "c"], ["a", "b", "a"], ["c", "a", "c"]] ∧
    (∀ i j (hi : i < edges.cycles.length) (hj : j < edges.cycles.length), i ≠ j →
      closingEdge? edges.cycles[i] ≠ closingEdge? edges.cycles[j] ∧
      ¬ edges.cycles[i].dropLast.IsRotated edges.cycles[j].dropLast) ∧
    edges.cycles.length ≤ edges.pairs.length := by
  intro edges
  have ht : edges.HasDistinctTargets := by decide +kernel
  exact ⟨ht, by decide +kernel, (cycles_reported_once edges ht).2.2⟩

/-- Where a key has a target twice, the cycle that it closes is found twice. -/
example : cycles (.ofList [("a", ["a", "a"])]) = [["a", "a"], ["a", "a"]] := by decide +kernel

end ModuleDeps.EdgeMap
