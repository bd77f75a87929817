/-
The moves of the search for cycles.

Each step of the search does one of six things, and each of them is written out here with the states
before and after it.  What the search keeps is then shown move by move, and what it does is read off
the moves, without looking at its definition again.

Main definitions:

* `ModuleDeps.EdgeMap.CycleSearch.Move` — what the search can do next.

Main results:

* `ModuleDeps.EdgeMap.CycleSearch.move_of_step`, `ModuleDeps.EdgeMap.CycleSearch.Move.step_eq` — the
  steps of the search are the moves;
* `ModuleDeps.EdgeMap.CycleSearch.step_eq_none_iff` — when the search is over;
* `ModuleDeps.EdgeMap.CycleSearch.run_induction` — what moves keep holds when the search is over.
-/

import ModuleDeps.Proofs.SearchesInStep

set_option relaxedAutoImplicit false
set_option autoImplicit false

namespace ModuleDeps.EdgeMap

namespace CycleSearch

/-- What the search for cycles can do next. -/
inductive Move (edges : EdgeMap) : CycleSearch → CycleSearch → Prop
  /-- A root that has been entered before is dropped. -/
  | skipRoot {root roots visited onStack found} (hv : root ∈ visited) :
      Move edges ⟨root :: roots, [], visited, onStack, found⟩ ⟨roots, [], visited, onStack, found⟩
  /-- A new root is entered. -/
  | enterRoot {root roots visited onStack found} (hv : root ∉ visited) :
      Move edges ⟨root :: roots, [], visited, onStack, found⟩
        ⟨roots, [⟨root, edges.targets root⟩], root :: visited, root :: onStack, found⟩
  /-- The innermost name has no target left, and is left. -/
  | leave {roots name stack visited onStack found} :
      Move edges ⟨roots, ⟨name, []⟩ :: stack, visited, onStack, found⟩
        ⟨roots, stack, visited, onStack.erase name, found⟩
  /-- A target on the stack closes a cycle. -/
  | close {roots name t rest stack visited onStack found} (hk : t ∈ edges.keys)
      (ho : t ∈ onStack) :
      Move edges ⟨roots, ⟨name, t :: rest⟩ :: stack, visited, onStack, found⟩
        ⟨roots, ⟨name, rest⟩ :: stack, visited, onStack,
          (pathFrom t (name :: stack.map CycleFrame.name).reverse ++ [t]) :: found⟩
  /-- A target that is no key, or has been left before, is passed over. -/
  | pass {roots name t rest stack visited onStack found}
      (h : t ∈ edges.keys → t ∉ onStack ∧ t ∈ visited) :
      Move edges ⟨roots, ⟨name, t :: rest⟩ :: stack, visited, onStack, found⟩
        ⟨roots, ⟨name, rest⟩ :: stack, visited, onStack, found⟩
  /-- A new target that is a key is entered. -/
  | enter {roots name t rest stack visited onStack found} (hk : t ∈ edges.keys)
      (ho : t ∉ onStack) (hv : t ∉ visited) :
      Move edges ⟨roots, ⟨name, t :: rest⟩ :: stack, visited, onStack, found⟩
        ⟨roots, ⟨t, edges.targets t⟩ :: ⟨name, rest⟩ :: stack, t :: visited, t :: onStack, found⟩

/-- Each step of the search is one of the moves. -/
theorem move_of_step {edges : EdgeMap} {s s' : CycleSearch} (h : s.step edges = some s') :
    Move edges s s' := by
  obtain ⟨roots, stack, visited, onStack, found⟩ := s
  match stack, roots with
  | [], [] => simp [step] at h
  | [], root :: roots =>
      simp only [step, Option.some.injEq] at h
      by_cases hv : root ∈ visited
      · rw [if_pos hv] at h
        exact h ▸ .skipRoot hv
      · rw [if_neg hv] at h
        exact h ▸ .enterRoot hv
  | ⟨name, []⟩ :: stack, roots =>
      simp only [step, Option.some.injEq] at h
      exact h ▸ .leave
  | ⟨name, t :: rest⟩ :: stack, roots =>
      simp only [step, look, Option.some.injEq, Bool.not_eq_true'] at h
      by_cases hk : t ∈ edges.keys
      · rw [if_neg (by simp [isKey_iff.2 hk])] at h
        by_cases ho : t ∈ onStack
        · rw [if_pos ho] at h
          exact h ▸ .close hk ho
        · rw [if_neg ho] at h
          by_cases hv : t ∈ visited
          · rw [if_pos hv] at h
            exact h ▸ .pass fun _ => ⟨ho, hv⟩
          · rw [if_neg hv] at h
            exact h ▸ .enter hk ho hv
      · rw [if_pos (Bool.eq_false_iff.2 fun hkey => hk (isKey_iff.1 hkey))] at h
        exact h ▸ .pass fun hkey => absurd hkey hk

/-- Each move is a step of the search. -/
theorem Move.step_eq {edges : EdgeMap} {s s' : CycleSearch} (h : Move edges s s') :
    s.step edges = some s' := by
  cases h with
  | skipRoot hv => simp [step, hv]
  | enterRoot hv => simp [step, CycleSearch.enter, hv]
  | leave => simp [step]
  | close hk ho => simp [step, look, path, isKey_iff.2 hk, ho]
  | @pass roots name t rest stack visited onStack found h =>
      by_cases hk : t ∈ edges.keys
      · simp [step, look, h hk]
      · simp [step, look, mt isKey_iff.1 hk]
  | enter hk ho hv => simp [step, look, CycleSearch.enter, isKey_iff.2 hk, ho, hv]

/-- A move leads the search to the same end. -/
theorem Move.run_eq {edges : EdgeMap} {s s' : CycleSearch} (h : Move edges s s') :
    s.run edges = s'.run edges :=
  run_of_step h.step_eq

/-- The search is over when its stack is empty and no root is left. -/
theorem step_eq_none_iff {edges : EdgeMap} {s : CycleSearch} :
    s.step edges = none ↔ s.stack = [] ∧ s.roots = [] := by
  obtain ⟨roots, stack, visited, onStack, found⟩ := s
  match stack, roots with
  | [], [] => simp [step]
  | [], root :: roots => simp [step]
  | ⟨name, []⟩ :: stack, roots => simp [step]
  | ⟨name, t :: rest⟩ :: stack, roots => simp [step]

/-- A search that has been run to its end is over. -/
theorem step_run (edges : EdgeMap) (s : CycleSearch) : (s.run edges).step edges = none := by
  induction s using run.induct edges with
  | case1 s h => rwa [run_of_over h]
  | case2 s t h _ ih => rwa [run_of_step h]

/-- What the moves keep holds when the search is over. -/
theorem run_induction {edges : EdgeMap} {P : CycleSearch → Prop}
    (hmove : ∀ {s s'}, Move edges s s' → P s → P s') {s : CycleSearch} (h : P s) :
    P (s.run edges) := by
  induction s using run.induct edges with
  | case1 s hover => rwa [run_of_over hover]
  | case2 s s' hstep _ ih =>
      rw [run_of_step hstep]
      exact ih (hmove (move_of_step hstep) h)

end CycleSearch

end ModuleDeps.EdgeMap
