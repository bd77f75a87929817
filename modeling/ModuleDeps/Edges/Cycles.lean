/-
Cycles of an edge map.

The keys are searched depth first, in their order, by a machine with a stack of its own.  When a
target of the innermost name is a name on the stack, the names from there on close a cycle, which
is written with that name at both ends.  A target that is no key is passed over, and so is a name
that has been entered before.

Main definitions:

* `ModuleDeps.EdgeMap.CycleSearch` — the state of the search;
* `ModuleDeps.EdgeMap.CycleSearch.step` — one step of it;
* `ModuleDeps.EdgeMap.cycles` — the cycles that the search finds, in the order in which it finds
  them.

Main results:

* `ModuleDeps.EdgeMap.CycleSearch.work_step_lt` — every step lowers the work that is left.
-/

import ModuleDeps.Edges.Pending

set_option relaxedAutoImplicit false
set_option autoImplicit false

namespace ModuleDeps.EdgeMap

/-- A name that has been entered, with the targets not yet looked at. -/
structure CycleFrame where
  /-- The name. -/
  name : String
  /-- Its targets that have not been looked at. -/
  rest : List String
  deriving DecidableEq, Repr

/-- The state of the search for cycles. -/
structure CycleSearch where
  /-- The keys at which the search has not been started yet. -/
  roots : List String
  /-- The names that have been entered and not left, the innermost first. -/
  stack : List CycleFrame
  /-- The names that have been entered. -/
  visited : List String
  /-- The names on the stack. -/
  onStack : List String
  /-- The cycles found so far, the last one first. -/
  found : List (List String)
  deriving DecidableEq, Repr

/-- The part of a path that starts at the first occurrence of a name, or the whole path. -/
def pathFrom (name : String) (path : List String) : List String :=
  path.drop ((path.findIdx? (· == name)).getD 0)

namespace CycleSearch

/-- The search before its first step. -/
def start (edges : EdgeMap) : CycleSearch where
  roots := edges.keys
  stack := []
  visited := []
  onStack := []
  found := []

/-- Enters a name. -/
def enter (edges : EdgeMap) (s : CycleSearch) (name : String) : CycleSearch :=
  { s with
    stack := ⟨name, edges.targets name⟩ :: s.stack
    visited := name :: s.visited
    onStack := name :: s.onStack }

/-- The names on the stack, the outermost first. -/
def path (s : CycleSearch) : List String :=
  (s.stack.map CycleFrame.name).reverse

/-- Looks at a target of the innermost name. -/
def look (edges : EdgeMap) (s : CycleSearch) (target : String) : CycleSearch :=
  if !edges.isKey target then s
  else if target ∈ s.onStack then
    { s with found := (pathFrom target s.path ++ [target]) :: s.found }
  else if target ∈ s.visited then s
  else s.enter edges target

/-- One step of the search; `none` when it is over. -/
def step (edges : EdgeMap) (s : CycleSearch) : Option CycleSearch :=
  match s.stack with
  | [] =>
    match s.roots with
    | [] => none
    | root :: roots =>
      let s := { s with roots := roots }
      some (if root ∈ s.visited then s else s.enter edges root)
  | frame :: stack =>
    match frame.rest with
    | [] => some { s with stack := stack, onStack := s.onStack.erase frame.name }
    | target :: rest =>
      some ({ s with stack := { frame with rest := rest } :: stack }.look edges target)

/-- The steps that a stack still asks for: one for each name, and two for each target. -/
def stackWork : List CycleFrame → Nat
  | [] => 0
  | frame :: stack => 1 + 2 * frame.rest.length + stackWork stack

/-- A bound on the number of steps that are left. -/
def work (edges : EdgeMap) (s : CycleSearch) : Nat :=
  2 * s.roots.length + stackWork s.stack + edges.pending s.visited

theorem work_enter_le (edges : EdgeMap) (s : CycleSearch) {name : String}
    (h : name ∉ s.visited) : (s.enter edges name).work edges ≤ s.work edges + 1 := by
  have := edges.pending_cons h
  simp only [work, enter, stackWork]
  omega

theorem work_look_le (edges : EdgeMap) (s : CycleSearch) (target : String) :
    (s.look edges target).work edges ≤ s.work edges + 1 := by
  unfold look
  split
  · omega
  · split
    · simp [work]
    · split
      · omega
      · next h => exact s.work_enter_le edges h

/-- Every step lowers the work that is left. -/
theorem work_step_lt (edges : EdgeMap) {s t : CycleSearch} (h : s.step edges = some t) :
    t.work edges < s.work edges := by
  unfold step at h
  split at h
  · next hs =>
    split at h
    · simp at h
    · next root roots hr =>
      simp only [Option.some.injEq] at h
      subst h
      split
      · simp [work, hr]
      · next hv =>
        have := work_enter_le edges { s with roots := roots } hv
        have hw : work edges { s with roots := roots } + 2 = s.work edges := by
          simp [work, hr]; omega
        omega
  · next frame stack hs =>
    split at h
    · next hf =>
      simp only [Option.some.injEq] at h
      subst h
      simp [work, stackWork, hs, hf]
    · next target rest hf =>
      simp only [Option.some.injEq] at h
      subst h
      have := work_look_le edges { s with stack := { frame with rest := rest } :: stack } target
      have hw : work edges { s with stack := { frame with rest := rest } :: stack } + 2
          = s.work edges := by
        simp [work, stackWork, hs, hf]; omega
      omega

/-- The state in which the search ends. -/
def run (edges : EdgeMap) (s : CycleSearch) : CycleSearch :=
  match h : s.step edges with
  | none => s
  | some t =>
    have := work_step_lt edges h
    run edges t
termination_by s.work edges

end CycleSearch

/-- The cycles of an edge map, in the order in which the search finds them. -/
def cycles (edges : EdgeMap) : List (List String) :=
  ((CycleSearch.start edges).run edges).found.reverse

end ModuleDeps.EdgeMap
