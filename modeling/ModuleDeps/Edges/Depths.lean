/-
Depths in an edge map.

The depth of a name without targets is zero, and the depth of any other name is one more than the
depth of its deepest target.  The names are searched depth first, in the order of the keys, by a
machine with a stack of its own.  A target that has been entered counts with the depth that is known
for it, which is zero as long as it has not been left.

Main definitions:

* `ModuleDeps.EdgeMap.DepthSearch` — the state of the search;
* `ModuleDeps.EdgeMap.DepthSearch.step` — one step of it;
* `ModuleDeps.EdgeMap.depths` — the depths of all keys and all names that can be reached from them.

Main results:

* `ModuleDeps.EdgeMap.DepthSearch.work_step_lt` — every step lowers the work that is left.
-/

import ModuleDeps.Edges.Pending

set_option relaxedAutoImplicit false
set_option autoImplicit false

namespace ModuleDeps.EdgeMap

/-- A name that has been entered, with what is known about its targets. -/
structure DepthFrame where
  /-- The name. -/
  name : String
  /-- Its targets that have not been looked at. -/
  rest : List String
  /-- The greatest depth among the targets that have been looked at. -/
  deepest : Nat
  deriving DecidableEq, Repr

/-- The state of the search for depths. -/
structure DepthSearch where
  /-- The keys at which the search has not been started yet. -/
  roots : List String
  /-- The names that have been entered and not left, the innermost first. -/
  stack : List DepthFrame
  /-- The names that have been entered. -/
  visited : List String
  /-- The depths of the names that have been left. -/
  known : NameTable Nat
  deriving DecidableEq

namespace DepthSearch

/-- The search before its first step. -/
def start (edges : EdgeMap) : DepthSearch where
  roots := edges.keys
  stack := []
  visited := []
  known := .empty

/-- Enters a name. -/
def enter (edges : EdgeMap) (s : DepthSearch) (name : String) : DepthSearch :=
  { s with
    stack := ⟨name, edges.targets name, 0⟩ :: s.stack
    visited := name :: s.visited }

/-- Tells the innermost name of a stack the depth of one of its targets. -/
def tell (depth : Nat) : List DepthFrame → List DepthFrame
  | [] => []
  | frame :: stack => { frame with deepest := max frame.deepest depth } :: stack

/-- Looks at a target of the innermost name. -/
def look (edges : EdgeMap) (s : DepthSearch) (target : String) : DepthSearch :=
  if target ∈ s.visited then { s with stack := tell ((s.known.get? target).getD 0) s.stack }
  else s.enter edges target

/-- The depth of a name all of whose targets have been looked at. -/
def depthOf (edges : EdgeMap) (frame : DepthFrame) : Nat :=
  if (edges.targets frame.name).isEmpty then 0 else frame.deepest + 1

/-- One step of the search; `none` when it is over. -/
def step (edges : EdgeMap) (s : DepthSearch) : Option DepthSearch :=
  match s.stack with
  | [] =>
    match s.roots with
    | [] => none
    | root :: roots =>
      let s := { s with roots := roots }
      some (if root ∈ s.visited then s else s.enter edges root)
  | frame :: stack =>
    match frame.rest with
    | [] =>
      let depth := depthOf edges frame
      some { s with stack := tell depth stack, known := s.known.insert frame.name depth }
    | target :: rest =>
      some ({ s with stack := { frame with rest := rest } :: stack }.look edges target)

/-- The steps that a stack still asks for: one for each name, and two for each target. -/
def stackWork : List DepthFrame → Nat
  | [] => 0
  | frame :: stack => 1 + 2 * frame.rest.length + stackWork stack

@[simp] theorem stackWork_tell (depth : Nat) (stack : List DepthFrame) :
    stackWork (tell depth stack) = stackWork stack := by
  cases stack <;> rfl

/-- A bound on the number of steps that are left. -/
def work (edges : EdgeMap) (s : DepthSearch) : Nat :=
  2 * s.roots.length + stackWork s.stack + edges.pending s.visited

theorem work_enter_le (edges : EdgeMap) (s : DepthSearch) {name : String}
    (h : name ∉ s.visited) : (s.enter edges name).work edges ≤ s.work edges + 1 := by
  have := edges.pending_cons h
  simp only [work, enter, stackWork]
  omega

theorem work_look_le (edges : EdgeMap) (s : DepthSearch) (target : String) :
    (s.look edges target).work edges ≤ s.work edges + 1 := by
  unfold look
  split
  · simp [work]
  · next h => exact s.work_enter_le edges h

/-- Every step lowers the work that is left. -/
theorem work_step_lt (edges : EdgeMap) {s t : DepthSearch} (h : s.step edges = some t) :
    t.work edges < s.work edges := by
  unfold step at h
  split at h
  · next hs =>
    split at h
    · simp at h
    · next root roots hr =>
      simp only [Option.some.injEq] at h
      subst h
      split
      · simp [work, hr]
      · next hv =>
        have := work_enter_le edges { s with roots := roots } hv
        have hw : work edges { s with roots := roots } + 2 = s.work edges := by
          simp [work, hr]; omega
        omega
  · next frame stack hs =>
    split at h
    · next hf =>
      simp only [Option.some.injEq] at h
      subst h
      simp only [work, stackWork_tell, hs]
      simp [stackWork, hf]
    · next target rest hf =>
      simp only [Option.some.injEq] at h
      subst h
      have := work_look_le edges { s with stack := { frame with rest := rest } :: stack } target
      have hw : work edges { s with stack := { frame with rest := rest } :: stack } + 2
          = s.work edges := by
        simp [work, stackWork, hs, hf]; omega
      omega

/-- The state in which the search ends. -/
def run (edges : EdgeMap) (s : DepthSearch) : DepthSearch :=
  match h : s.step edges with
  | none => s
  | some t =>
    have := work_step_lt edges h
    run edges t
termination_by s.work edges

end DepthSearch

/-- The depths of the keys of an edge map and of all names that can be reached from them. -/
def depths (edges : EdgeMap) : NameTable Nat :=
  ((DepthSearch.start edges).run edges).known

end ModuleDeps.EdgeMap
