/-
The search for cycles and the search for depths, side by side.

The two searches are written apart: one passes over the targets that are no keys, the other enters
and leaves them; one keeps the names on its stack in a list of their own, the other a table of the
depths that it knows.  They walk the edge map in the same order nevertheless.  A state of the search
for depths, together with the cycles found so far, *is* a state of the search for cycles once what
only the depths need is forgotten, and whatever one search does, the other does too.

Main definitions:

* `ModuleDeps.EdgeMap.DepthSearch.view` — a state of the search for depths, seen as a state of the
  search for cycles;
* `ModuleDeps.EdgeMap.Joint` — what both searches can do next, in one place.

Main results:

* `ModuleDeps.EdgeMap.Joint.step_view`, `ModuleDeps.EdgeMap.Joint.run_eq` — a joint move is one step
  of the search for cycles, and leads the search for depths to the same end;
* `ModuleDeps.EdgeMap.exists_joint` — as long as the search for depths is not over, there is a joint
  move;
* `ModuleDeps.EdgeMap.run_together` — what every joint move keeps holds when both searches end, and
  they end in the same state.
-/

import ModuleDeps.Edges.Cycles
import ModuleDeps.Edges.Depths
import ModuleDeps.Proofs.EdgeMaps

set_option relaxedAutoImplicit false
set_option autoImplicit false

namespace ModuleDeps.EdgeMap

/-! ### Steps and runs -/

theorem CycleSearch.run_of_step {edges : EdgeMap} {s t : CycleSearch}
    (h : s.step edges = some t) : s.run edges = t.run edges := by
  rw [CycleSearch.run]
  split
  · next h' => rw [h] at h'; simp at h'
  · next u h' =>
    rw [h, Option.some.injEq] at h'
    rw [h']

theorem CycleSearch.run_of_over {edges : EdgeMap} {s : CycleSearch} (h : s.step edges = none) :
    s.run edges = s := by
  rw [CycleSearch.run]
  split
  · rfl
  · next u h' => rw [h] at h'; simp at h'

namespace DepthSearch

theorem run_of_step {edges : EdgeMap} {s t : DepthSearch} (h : s.step edges = some t) :
    s.run edges = t.run edges := by
  rw [run]
  split
  · next h' => rw [h] at h'; simp at h'
  · next u h' =>
    rw [h, Option.some.injEq] at h'
    rw [h']

theorem run_of_over {edges : EdgeMap} {s : DepthSearch} (h : s.step edges = none) :
    s.run edges = s := by
  rw [run]
  split
  · rfl
  · next u h' => rw [h] at h'; simp at h'

/-- The search is over when its stack is empty and no root is left. -/
theorem step_eq_none_iff {edges : EdgeMap} {s : DepthSearch} :
    s.step edges = none ↔ s.stack = [] ∧ s.roots = [] := by
  obtain ⟨roots, stack, visited, known⟩ := s
  match stack, roots with
  | [], [] => simp [step]
  | [], root :: roots => simp [step]
  | ⟨name, [], deepest⟩ :: stack, roots => simp [step]
  | ⟨name, t :: rest, deepest⟩ :: stack, roots => simp [step]

/-- A search that has been run to its end is over. -/
theorem step_run (edges : EdgeMap) (s : DepthSearch) : (s.run edges).step edges = none := by
  induction s using run.induct edges with
  | case1 s h => rwa [run_of_over h]
  | case2 s t h _ ih => rwa [run_of_step h]

/-- The names on the stack, the innermost first. -/
def names (d : DepthSearch) : List String :=
  d.stack.map DepthFrame.name

@[simp] theorem map_name_tell (depth : Nat) (stack : List DepthFrame) :
    (tell depth stack).map DepthFrame.name = stack.map DepthFrame.name := by
  cases stack <;> rfl

/-- The state seen as one of the search for cycles, which has found the given cycles: the depths are
forgotten, and so are the names that are no keys. -/
def view (edges : EdgeMap) (found : List (List String)) (d : DepthSearch) : CycleSearch where
  roots := d.roots
  stack := d.stack.map fun frame => ⟨frame.name, frame.rest⟩
  visited := d.visited.filter edges.isKey
  onStack := d.names
  found := found

@[simp] theorem stack_view_tell (depth : Nat) (stack : List DepthFrame) :
    (tell depth stack).map (fun frame => CycleFrame.mk frame.name frame.rest) =
      stack.map fun frame => ⟨frame.name, frame.rest⟩ := by
  cases stack <;> rfl

end DepthSearch

/-! ### Joint moves -/

open DepthSearch (depthOf)

/-- What both searches can do next: `Joint edges found d found' d'` leads from the state `d`, with
the cycles `found`, to the state `d'` with the cycles `found'`. -/
inductive Joint (edges : EdgeMap) :
    List (List String) → DepthSearch → List (List String) → DepthSearch → Prop
  /-- A root that has been entered before is dropped. -/
  | skipRoot {found root roots visited known} (hk : root ∈ edges.keys) (hv : root ∈ visited) :
      Joint edges found ⟨root :: roots, [], visited, known⟩ found ⟨roots, [], visited, known⟩
  /-- A new root is entered. -/
  | enterRoot {found root roots visited known} (hk : root ∈ edges.keys) (hv : root ∉ visited) :
      Joint edges found ⟨root :: roots, [], visited, known⟩
        found ⟨roots, [⟨root, edges.targets root, 0⟩], root :: visited, known⟩
  /-- The innermost name has no target left: it is left, and its depth is told to the next one. -/
  | leave {found roots name deepest stack visited known} :
      Joint edges found ⟨roots, ⟨name, [], deepest⟩ :: stack, visited, known⟩
        found ⟨roots, DepthSearch.tell (depthOf edges ⟨name, [], deepest⟩) stack, visited,
          known.insert name (depthOf edges ⟨name, [], deepest⟩)⟩
  /-- A target on the stack closes a cycle. -/
  | close {found roots name t rest deepest stack visited known}
      (hk : t ∈ edges.keys) (hv : t ∈ visited) (ho : t ∈ name :: stack.map DepthFrame.name) :
      Joint edges found ⟨roots, ⟨name, t :: rest, deepest⟩ :: stack, visited, known⟩
        ((pathFrom t (name :: stack.map DepthFrame.name).reverse ++ [t]) :: found)
        ⟨roots, ⟨name, rest, max deepest ((known.get? t).getD 0)⟩ :: stack, visited, known⟩
  /-- A target that has been left before is passed over. -/
  | pass {found roots name t rest deepest stack visited known}
      (hv : t ∈ visited) (ho : t ∉ name :: stack.map DepthFrame.name) :
      Joint edges found ⟨roots, ⟨name, t :: rest, deepest⟩ :: stack, visited, known⟩
        found ⟨roots, ⟨name, rest, max deepest ((known.get? t).getD 0)⟩ :: stack, visited, known⟩
  /-- A new target that is no key is entered and left at once. -/
  | leaf {found roots name t rest deepest stack visited known}
      (hk : t ∉ edges.keys) (hv : t ∉ visited) :
      Joint edges found ⟨roots, ⟨name, t :: rest, deepest⟩ :: stack, visited, known⟩
        found ⟨roots, ⟨name, rest, deepest⟩ :: stack, t :: visited, known.insert t 0⟩
  /-- A new target that is a key is entered. -/
  | enter {found roots name t rest deepest stack visited known}
      (hk : t ∈ edges.keys) (hv : t ∉ visited) (ho : t ∉ name :: stack.map DepthFrame.name) :
      Joint edges found ⟨roots, ⟨name, t :: rest, deepest⟩ :: stack, visited, known⟩
        found ⟨roots, ⟨t, edges.targets t, 0⟩ :: ⟨name, rest, deepest⟩ :: stack, t :: visited,
          known⟩

namespace Joint

variable {edges : EdgeMap} {found found' : List (List String)} {d d' : DepthSearch}

/-- A joint move is one step of the search for cycles. -/
theorem step_view (h : Joint edges found d found' d') :
    (d.view edges found).step edges = some (d'.view edges found') := by
  simp only [DepthSearch.view, DepthSearch.names]
  cases h with
  | skipRoot hk hv =>
      have hk' := isKey_iff.2 hk
      simp [CycleSearch.step, hv, hk']
  | enterRoot hk hv =>
      have hk' := isKey_iff.2 hk
      simp [CycleSearch.step, CycleSearch.enter, hv, hk']
  | leave => simp [CycleSearch.step]
  | close hk hv ho =>
      have hk' := isKey_iff.2 hk
      simp only [List.map_cons, CycleSearch.step, CycleSearch.look, hk', Bool.not_true,
        Bool.false_eq_true, if_false, if_pos ho, CycleSearch.path, List.map_map]
      rfl
  | @pass roots name t rest deepest stack visited known hv ho =>
      simp only [List.map_cons, CycleSearch.step, CycleSearch.look, if_neg ho]
      cases hk : edges.isKey t with
      | false => simp
      | true => simp [hv, hk]
  | @leaf roots name t rest deepest stack visited known hk hv =>
      have hk' : edges.isKey t = false := Bool.eq_false_iff.2 fun h => hk (isKey_iff.1 h)
      simp [CycleSearch.step, CycleSearch.look, hk']
  | enter hk hv ho =>
      have hk' := isKey_iff.2 hk
      simp only [List.map_cons, CycleSearch.step, CycleSearch.look, hk', Bool.not_true,
        Bool.false_eq_true, if_false, if_neg ho, List.mem_filter, hv, false_and,
        CycleSearch.enter, List.filter_cons_of_pos]

/-- A joint move leads the search for depths to the same end. -/
theorem run_eq (h : Joint edges found d found' d') : d.run edges = d'.run edges := by
  cases h with
  | skipRoot hk hv => exact DepthSearch.run_of_step (by simp [DepthSearch.step, hv])
  | enterRoot hk hv =>
      exact DepthSearch.run_of_step (by simp [DepthSearch.step, DepthSearch.enter, hv])
  | leave => exact DepthSearch.run_of_step (by simp [DepthSearch.step])
  | close hk hv ho =>
      refine DepthSearch.run_of_step ?_
      simp [DepthSearch.step, DepthSearch.look, DepthSearch.tell, hv]
  | pass hv ho =>
      refine DepthSearch.run_of_step ?_
      simp [DepthSearch.step, DepthSearch.look, DepthSearch.tell, hv]
  | @leaf roots name t rest deepest stack visited known hk hv =>
      -- the search for depths takes two steps here: it enters the leaf and leaves it
      have ht : edges.targets t = [] := targets_of_notMem_keys hk
      have hin : DepthSearch.step edges ⟨roots, ⟨name, t :: rest, deepest⟩ :: stack, visited, known⟩
          = some ⟨roots, ⟨t, [], 0⟩ :: ⟨name, rest, deepest⟩ :: stack, t :: visited, known⟩ := by
        simp [DepthSearch.step, DepthSearch.look, DepthSearch.enter, hv, ht]
      have hout : DepthSearch.step edges
          ⟨roots, ⟨t, [], 0⟩ :: ⟨name, rest, deepest⟩ :: stack, t :: visited, known⟩
          = some ⟨roots, ⟨name, rest, deepest⟩ :: stack, t :: visited, known.insert t 0⟩ := by
        simp [DepthSearch.step, depthOf, DepthSearch.tell, ht]
      rw [DepthSearch.run_of_step hin, DepthSearch.run_of_step hout]
  | enter hk hv ho =>
      exact DepthSearch.run_of_step (by
        simp [DepthSearch.step, DepthSearch.look, DepthSearch.enter, hv])

end Joint

/-- As long as the search for depths is not over, there is a joint move. -/
theorem exists_joint {edges : EdgeMap} {d : DepthSearch} (found : List (List String))
    (hroots : ∀ r ∈ d.roots, r ∈ edges.keys)
    (hnames : ∀ x ∈ d.names, x ∈ edges.keys ∧ x ∈ d.visited) (hd : d.step edges ≠ none) :
    ∃ found' d', Joint edges found d found' d' := by
  obtain ⟨roots, stack, visited, known⟩ := d
  match stack, roots with
  | [], [] => exact absurd (DepthSearch.step_eq_none_iff.2 ⟨rfl, rfl⟩) hd
  | [], root :: roots =>
      have hk := hroots root List.mem_cons_self
      by_cases hv : root ∈ visited
      · exact ⟨_, _, .skipRoot hk hv⟩
      · exact ⟨_, _, .enterRoot hk hv⟩
  | ⟨name, [], deepest⟩ :: stack, roots => exact ⟨_, _, .leave⟩
  | ⟨name, t :: rest, deepest⟩ :: stack, roots =>
      by_cases hv : t ∈ visited
      · by_cases ho : t ∈ name :: stack.map DepthFrame.name
        · exact ⟨_, _, .close (hnames t ho).1 hv ho⟩
        · exact ⟨_, _, .pass hv ho⟩
      · by_cases hk : t ∈ edges.keys
        · exact ⟨_, _, .enter hk hv fun ho => hv (hnames t ho).2⟩
        · exact ⟨_, _, .leaf hk hv⟩

/-- What every joint move keeps holds when both searches end, and they end in the same state. -/
theorem run_together {edges : EdgeMap} {P : List (List String) → DepthSearch → Prop}
    (hroots : ∀ {found d}, P found d → ∀ r ∈ d.roots, r ∈ edges.keys)
    (hnames : ∀ {found d}, P found d → ∀ x ∈ d.names, x ∈ edges.keys ∧ x ∈ d.visited)
    (hjoint : ∀ {found d found' d'}, Joint edges found d found' d' → P found d → P found' d')
    (found : List (List String)) (d : DepthSearch) (h : P found d) :
    ∃ found', (d.view edges found).run edges = (d.run edges).view edges found' ∧
      P found' (d.run edges) := by
  -- the work that is left to the search for cycles falls with every joint move
  induction hw : (d.view edges found).work edges using Nat.strongRecOn
    generalizing found d with
  | ind w ih =>
      by_cases hd : d.step edges = none
      · refine ⟨found, ?_, ?_⟩
        · rw [DepthSearch.run_of_over hd]
          obtain ⟨hs, hr⟩ := DepthSearch.step_eq_none_iff.1 hd
          exact CycleSearch.run_of_over (by simp [DepthSearch.view, hs, hr, CycleSearch.step])
        · rwa [DepthSearch.run_of_over hd]
      · obtain ⟨found₁, d₁, hj⟩ := exists_joint found (hroots h) (hnames h) hd
        have hlt := CycleSearch.work_step_lt edges hj.step_view
        obtain ⟨found', hrun, hP⟩ := ih _ (hw ▸ hlt) found₁ d₁ (hjoint hj h) rfl
        refine ⟨found', ?_, ?_⟩
        · rw [CycleSearch.run_of_step hj.step_view, hj.run_eq, hrun]
        · rwa [hj.run_eq]

end ModuleDeps.EdgeMap
