/-
The search for cycles as a recursion.

Searching depth first is a recursion: visiting a name goes through its targets in order, and visits
those that have not been visited, with a path that leads from the start to the name.  The search for
cycles keeps the calls of this recursion on a stack of its own.  A frame of the stack stands for a
call that has not returned, with the targets that it has still to go through, and the names of the
frames are the path.  Running the search until a frame is left does what the call does that the
frame stands for, and so both find the same cycles in the same order.

Main definitions:

* `ModuleDeps.EdgeMap.Progress` — what the recursion has visited and found;
* `ModuleDeps.EdgeMap.visit`, `ModuleDeps.EdgeMap.visitTargets` — visiting a name, and going through
  targets;
* `ModuleDeps.EdgeMap.recursiveCycles` — the cycles that the recursion finds;
* `ModuleDeps.EdgeMap.Progress.searchAt` — the state of the search for a progress and a stack.

Main results:

* `ModuleDeps.EdgeMap.run_visitTargets` — running the search until a frame is left does what the
  call does that the frame stands for;
* `ModuleDeps.EdgeMap.cycles_eq_recursiveCycles` — **the search finds what the recursion finds**.
-/

import ModuleDeps.Proofs.CycleMoves

set_option relaxedAutoImplicit false
set_option autoImplicit false

namespace ModuleDeps

/-- Visiting more names leaves less to be done. -/
theorem pendingEntries_le_of_subset {visited visited' : List String} (h : visited ⊆ visited')
    (es : List (String × List String)) :
    pendingEntries visited' es ≤ pendingEntries visited es := by
  induction es with
  | nil => exact Nat.le_refl _
  | cons e es ih =>
      rw [pendingEntries, pendingEntries]
      refine Nat.add_le_add ?_ ih
      by_cases he : e.1 ∈ visited
      · simp [he, h he]
      · rw [if_neg he]
        split <;> omega

namespace EdgeMap

/-! ### The recursion -/

/-- What the recursion has visited and found. -/
structure Progress where
  /-- The names that have been visited. -/
  visited : List String
  /-- The cycles found so far, the first one first. -/
  found : List (List String)

namespace Progress

/-- Nothing visited, nothing found. -/
def start : Progress where
  visited := []
  found := []

/-- Further progress: no name that has been visited is forgotten. -/
structure Further (p : Progress) where
  /-- What has been visited and found by now. -/
  now : Progress
  /-- All that had been visited still is. -/
  kept : p.visited ⊆ now.visited

/-- One more name has been visited. -/
def mark (p : Progress) (name : String) : p.Further where
  now := { p with visited := name :: p.visited }
  kept := List.subset_cons_self name p.visited

/-- One more cycle has been found. -/
def record (p : Progress) (cycle : List String) : p.Further where
  now := { p with found := p.found ++ [cycle] }
  kept := List.Subset.refl p.visited

/-- Further progress on further progress. -/
def Further.next {p : Progress} (q : p.Further) (r : q.now.Further) : p.Further where
  now := r.now
  kept := fun _ hx => r.kept (q.kept hx)

/-- Further progress leaves less to be done. -/
theorem Further.pending_le {p : Progress} (q : p.Further) (edges : EdgeMap) :
    edges.pending q.now.visited ≤ edges.pending p.visited :=
  pendingEntries_le_of_subset q.kept edges.entries

end Progress

mutual

/-- Visits a name that has not been visited, and to which the path leads: marks it as visited, and
goes through its targets. -/
def visit (edges : EdgeMap) (path : List String) (name : String) (p : Progress)
    (hnew : name ∉ p.visited) : p.Further :=
  have := edges.pending_cons hnew
  let q := p.mark name
  q.next (visitTargets edges (path ++ [name]) (edges.targets name) q.now)
termination_by edges.pending p.visited + 1
decreasing_by
  simp only [Progress.mark]
  omega

/-- Goes through targets of the last name of the path.  One that is no key is skipped; one on the
path closes a cycle; any other one is visited, if it has not been visited. -/
def visitTargets (edges : EdgeMap) (path ts : List String) (p : Progress) : p.Further :=
  match ts with
  | [] => ⟨p, List.Subset.refl p.visited⟩
  | t :: ts =>
    if t ∉ edges.keys then visitTargets edges path ts p
    else if t ∈ path then
      let q := p.record (path.dropWhile (· != t) ++ [t])
      q.next (visitTargets edges path ts q.now)
    else if hnew : t ∉ p.visited then
      let q := visit edges path t p hnew
      q.next (visitTargets edges path ts q.now)
    else visitTargets edges path ts p
termination_by edges.pending p.visited + 2 * ts.length
decreasing_by
  · simp
  · simp [Progress.record]
  · rw [List.length_cons]
    omega
  · refine Nat.lt_of_le_of_lt (Nat.add_le_add_right (Progress.Further.pending_le _ edges) _) ?_
    simp
  · simp

end

/-- Visits a name with an empty path, if it has not been visited. -/
def visitRoot (edges : EdgeMap) (p : Progress) (root : String) : Progress :=
  if hnew : root ∉ p.visited then (edges.visit [] root p hnew).now else p

/-- The cycles that the recursion finds when it visits the keys in their order. -/
def recursiveCycles (edges : EdgeMap) : List (List String) :=
  (edges.keys.foldl edges.visitRoot .start).found

/-! ### Moves of the search -/

/-- The part of a path from the first occurrence of a name on is left when what stands before it is
dropped. -/
theorem pathFrom_eq_dropWhile {t : String} {path : List String} (ht : t ∈ path) :
    pathFrom t path = path.dropWhile (· != t) := by
  have hfirst : path.findIdx? (· == t) = some (path.findIdx (· == t)) :=
    List.findIdx?_eq_some_of_exists ⟨t, ht, beq_self_eq_true t⟩
  rw [pathFrom, hfirst, Option.getD_some, List.dropWhile_eq_drop_findIdx_not]
  simp [bne]

/-- The path to the innermost name of a stack: all its names, the outermost first. -/
def pathTo (stack : List CycleFrame) : List String :=
  (stack.map CycleFrame.name).reverse

@[simp] theorem pathTo_cons (frame : CycleFrame) (stack : List CycleFrame) :
    pathTo (frame :: stack) = pathTo stack ++ [frame.name] := by
  simp [pathTo]

/-- The search that has made the given progress, and has the given stack. -/
def Progress.searchAt (p : Progress) (roots : List String) (stack : List CycleFrame) :
    CycleSearch where
  roots := roots
  stack := stack
  visited := p.visited
  onStack := stack.map CycleFrame.name
  found := p.found.reverse

section Moves

variable (edges : EdgeMap) (p : Progress) (roots : List String) (stack : List CycleFrame)
  (name : String) {t : String} {ts : List String}

/-- The names kept beside the stack are those on the path. -/
theorem mem_onStack_iff : t ∈ name :: stack.map CycleFrame.name ↔ t ∈ pathTo stack ++ [name] := by
  simp [pathTo, or_comm]

theorem run_leave :
    (p.searchAt roots (⟨name, []⟩ :: stack)).run edges = (p.searchAt roots stack).run edges := by
  refine CycleSearch.Move.leave.run_eq.trans ?_
  rw [List.map_cons, List.erase_cons_head]
  rfl

theorem run_pass (h : t ∈ edges.keys → t ∉ pathTo stack ++ [name] ∧ t ∈ p.visited) :
    (p.searchAt roots (⟨name, t :: ts⟩ :: stack)).run edges =
      (p.searchAt roots (⟨name, ts⟩ :: stack)).run edges :=
  (CycleSearch.Move.pass fun hk => ⟨mt (mem_onStack_iff stack name).1 (h hk).1, (h hk).2⟩).run_eq

theorem run_close (hk : t ∈ edges.keys) (ho : t ∈ pathTo stack ++ [name]) :
    (p.searchAt roots (⟨name, t :: ts⟩ :: stack)).run edges =
      ((p.record ((pathTo stack ++ [name]).dropWhile (· != t) ++ [t])).now.searchAt roots
        (⟨name, ts⟩ :: stack)).run edges := by
  refine (CycleSearch.Move.close hk ((mem_onStack_iff stack name).2 ho)).run_eq.trans ?_
  rw [← pathFrom_eq_dropWhile ho]
  simp [Progress.searchAt, Progress.record, pathTo]

theorem run_enter (hk : t ∈ edges.keys) (ho : t ∉ pathTo stack ++ [name]) (hv : t ∉ p.visited) :
    (p.searchAt roots (⟨name, t :: ts⟩ :: stack)).run edges =
      ((p.mark t).now.searchAt roots (⟨t, edges.targets t⟩ :: ⟨name, ts⟩ :: stack)).run edges :=
  (CycleSearch.Move.enter hk (mt (mem_onStack_iff stack name).1 ho) hv).run_eq

end Moves

/-! ### Frames and calls -/

/-- Running the search until the innermost frame is left does what the call does that the frame
stands for. -/
theorem run_visitTargets (edges : EdgeMap) :
    (∀ path name p hnew roots stack, path = pathTo stack →
      ((p.mark name).now.searchAt roots (⟨name, edges.targets name⟩ :: stack)).run edges =
        ((edges.visit path name p hnew).now.searchAt roots stack).run edges) ∧
    (∀ path ts p roots name stack, path = pathTo stack ++ [name] →
      (p.searchAt roots (⟨name, ts⟩ :: stack)).run edges =
        ((edges.visitTargets path ts p).now.searchAt roots stack).run edges) := by
  refine visit.mutual_induct edges _ _ ?visit ?nil ?skip ?close ?enter ?pass
  case visit =>
    intro path name p hnew _ q ih roots stack hpath
    rw [visit]
    exact ih roots name stack (by rw [hpath])
  case nil =>
    intro path p roots name stack hpath
    rw [visitTargets, run_leave]
  case skip =>
    intro path p t ts hk ih roots name stack hpath
    rw [visitTargets, if_pos hk, run_pass _ _ _ _ _ fun h => absurd h hk]
    exact ih roots name stack hpath
  case close =>
    intro path p t ts hk ho q ih roots name stack hpath
    subst hpath
    rw [visitTargets, if_neg hk, if_pos ho, run_close _ _ _ _ _ (not_not.1 hk) ho]
    exact ih roots name stack rfl
  case enter =>
    intro path p t ts hk ho hnew q ihvisit ihrest roots name stack hpath
    subst hpath
    -- the call for the target returns before the other targets are looked at
    rw [visitTargets, if_neg hk, if_neg ho, dif_pos hnew,
      run_enter _ _ _ _ _ (not_not.1 hk) ho hnew,
      ihvisit roots (⟨name, ts⟩ :: stack) (by rw [pathTo_cons])]
    exact ihrest roots name stack rfl
  case pass =>
    intro path p t ts hk ho hv ih roots name stack hpath
    subst hpath
    rw [visitTargets, if_neg hk, if_neg ho, dif_neg hv,
      run_pass _ _ _ _ _ fun _ => ⟨ho, not_not.1 hv⟩]
    exact ih roots name stack rfl

/-- Running the search over the roots that are left visits them. -/
theorem run_visitRoot (edges : EdgeMap) (roots : List String) (p : Progress) :
    (p.searchAt roots []).run edges = (roots.foldl edges.visitRoot p).searchAt [] [] := by
  induction roots generalizing p with
  | nil => exact CycleSearch.run_of_over rfl
  | cons root roots ih =>
      rw [List.foldl_cons, ← ih, visitRoot]
      split
      · next hnew =>
        refine (CycleSearch.Move.enterRoot hnew).run_eq.trans ?_
        exact edges.run_visitTargets.1 [] root p hnew roots [] rfl
      · next hv => exact (CycleSearch.Move.skipRoot (not_not.1 hv)).run_eq

/-- **The search finds what the recursion finds**: the same cycles, in the same order. -/
theorem cycles_eq_recursiveCycles (edges : EdgeMap) : edges.cycles = edges.recursiveCycles := by
  have hstart : CycleSearch.start edges = Progress.start.searchAt edges.keys [] := rfl
  rw [cycles, hstart, run_visitRoot, recursiveCycles]
  exact List.reverse_reverse _

/-- Both keep to the first way into a ring, and report a name that imports itself. -/
example :
    let edges : EdgeMap := .ofList
      [("a", ["b", "c"]), ("b", ["d", "b"]), ("c", ["d"]), ("d", ["a", "leaf"])]
    edges.recursiveCycles = [["a", "b", "d", "a"], ["b", "b"]] := by
  decide +kernel

end EdgeMap

end ModuleDeps
