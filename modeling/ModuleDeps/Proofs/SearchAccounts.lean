/-
The search for cycles, accounted for step by step.

A run of the search is the list of its states.  Two things can be read off a state: the name that
the next step enters, and the target that the next step looks at.  What has been entered and looked
at before a state, and what this state has still ahead of it, always make up the whole edge map:
entering a name and leaving it change nothing of what is still to be looked at, and looking at a
target moves it from one side of the account to the other.  When the search is over, nothing is
ahead, so every key has been entered once and every target has been looked at once; and since every
step drops a root, leaves a name or looks at a target, the number of steps is known exactly.

Main definitions:

* `ModuleDeps.EdgeMap.CycleSearch.states` — the states of a run;
* `ModuleDeps.EdgeMap.CycleSearch.entered?`, `ModuleDeps.EdgeMap.CycleSearch.looked?` — what the
  next step enters, and what it looks at;
* `ModuleDeps.EdgeMap.CycleSearch.remaining` — the targets of a name that are still to be looked at;
* `ModuleDeps.EdgeMap.CycleSearch.Accounts` — what has been done and what is ahead make up the edge
  map.

Main results:

* `ModuleDeps.EdgeMap.CycleSearch.states_induction` — what moves keep holds of every state of a run,
  together with the states before it;
* `ModuleDeps.EdgeMap.CycleSearch.Accounts.move` — moves keep the accounts;
* `ModuleDeps.EdgeMap.cycleSearch_accounts_for_every_step` — **the stack and the names kept beside
  it agree in every state, and every key and target has its turn once**.
-/

import ModuleDeps.Proofs.EnteringOrder

set_option relaxedAutoImplicit false
set_option autoImplicit false

namespace ModuleDeps.EdgeMap

namespace CycleSearch

/-! ### Runs -/

/-- The states of the search, from the given one to the one in which it ends. -/
def states (edges : EdgeMap) (s : CycleSearch) : List CycleSearch :=
  match h : s.step edges with
  | none => [s]
  | some t =>
    have := work_step_lt edges h
    s :: states edges t
termination_by s.work edges

theorem states_of_step {edges : EdgeMap} {s t : CycleSearch} (h : s.step edges = some t) :
    s.states edges = s :: t.states edges := by
  rw [states]
  split
  · next h' => rw [h] at h'; simp at h'
  · next u h' =>
    rw [h, Option.some.injEq] at h'
    rw [h']

theorem states_of_over {edges : EdgeMap} {s : CycleSearch} (h : s.step edges = none) :
    s.states edges = [s] := by
  rw [states]
  split
  · rfl
  · next u h' => rw [h] at h'; simp at h'

/-- What moves keep holds of every state of a run, together with the states before it. -/
theorem states_induction {edges : EdgeMap} {P : List CycleSearch → CycleSearch → Prop}
    (hmove : ∀ {past s s'}, Move edges s s' → P past s → P (past ++ [s]) s')
    (past : List CycleSearch) {s : CycleSearch} (h : P past s) {between : List CycleSearch}
    {s' : CycleSearch} {future : List CycleSearch}
    (hsplit : s.states edges = between ++ s' :: future) : P (past ++ between) s' := by
  induction s using run.induct edges generalizing past between with
  | case1 s hover =>
      rw [states_of_over hover] at hsplit
      cases between with
      | nil =>
          obtain ⟨rfl, -⟩ := List.cons.inj hsplit
          rwa [List.append_nil]
      | cons u between => simp at hsplit
  | case2 s t hstep _ ih =>
      rw [states_of_step hstep] at hsplit
      cases between with
      | nil =>
          obtain ⟨rfl, -⟩ := List.cons.inj hsplit
          rwa [List.append_nil]
      | cons u between =>
          obtain ⟨rfl, htail⟩ := List.cons.inj hsplit
          rw [← List.singleton_append, ← List.append_assoc]
          exact ih _ (hmove (move_of_step hstep) h) htail

/-- The last state is the one in which the search ends. -/
theorem exists_states_eq_concat (edges : EdgeMap) (s : CycleSearch) :
    ∃ past, s.states edges = past ++ [s.run edges] := by
  induction s using run.induct edges with
  | case1 s hover => exact ⟨[], by rw [states_of_over hover, run_of_over hover, List.nil_append]⟩
  | case2 s t hstep _ ih =>
      obtain ⟨past, hpast⟩ := ih
      exact ⟨s :: past, by rw [states_of_step hstep, run_of_step hstep, hpast, List.cons_append]⟩

/-! ### What a step enters and looks at -/

/-- The name that the next step puts on the stack. -/
def entered? (edges : EdgeMap) (s : CycleSearch) : Option String :=
  (s.step edges).bind fun s' =>
    if s.stack.length < s'.stack.length then s'.names.head? else none

/-- The target that the next step looks at, behind the name that has it, and with its place among
the targets of this name. -/
def looked? (edges : EdgeMap) (s : CycleSearch) : Option (String × String × Nat) :=
  match s.stack with
  | ⟨name, t :: rest⟩ :: _ => some (name, t, (edges.targets name).length - (t :: rest).length)
  | _ => none

theorem filterMap_concat {β : Type} (f : CycleSearch → Option β) (past : List CycleSearch)
    (s : CycleSearch) : (past ++ [s]).filterMap f = past.filterMap f ++ (f s).toList := by
  cases h : f s with
  | none => simp [h]
  | some event => simp [h]

/-- The targets of one name, with their places, among all that were looked at. -/
def looksOf (x : String) (looks : List (String × String × Nat)) : List (String × Nat) :=
  (looks.filter (·.1 = x)).map Prod.snd

theorem looksOf_concat (x name t : String) (place : Nat) (looks : List (String × String × Nat)) :
    looksOf x (looks ++ [(name, t, place)]) =
      if name = x then looksOf x looks ++ [(t, place)] else looksOf x looks := by
  by_cases h : name = x <;> simp [looksOf, h]

/-- The targets of a name that are still to be looked at. -/
def remaining (edges : EdgeMap) (s : CycleSearch) (x : String) : List String :=
  match s.stack.find? (·.name == x) with
  | some frame => frame.rest
  | none => if x ∈ s.visited then [] else edges.targets x

section Remaining

variable {edges : EdgeMap} {roots : List String} {name x : String} {rest : List String}
  {stack : List CycleFrame} {visited onStack : List String} {found : List (List String)}

theorem remaining_innermost :
    remaining edges ⟨roots, ⟨name, rest⟩ :: stack, visited, onStack, found⟩ name = rest := by
  simp [remaining]

/-- Only the innermost name is concerned when the frame on top changes or is removed. -/
theorem remaining_of_ne (h : name ≠ x) :
    remaining edges ⟨roots, ⟨name, rest⟩ :: stack, visited, onStack, found⟩ x =
      remaining edges ⟨roots, stack, visited, onStack, found⟩ x := by
  simp [remaining, h]

theorem remaining_of_notMem_names {s : CycleSearch} (h : x ∉ s.names) :
    remaining edges s x = if x ∈ s.visited then [] else edges.targets x := by
  have hnone : s.stack.find? (·.name == x) = none := by
    refine List.find?_eq_none.2 fun frame hf hname => h ?_
    rw [← beq_iff_eq.1 hname]
    exact List.mem_map_of_mem hf
  rw [remaining, hnone]

/-- To enter a new name changes nothing of what is ahead. -/
theorem remaining_enter {s : CycleSearch} (ho : s.InOrder) (hv : name ∉ s.visited) :
    remaining edges (s.enter edges name) x = remaining edges s x := by
  by_cases hx : name = x
  · subst hx
    rw [remaining_of_notMem_names fun hn => hv (ho.names.subset hn), if_neg hv]
    exact remaining_innermost
  · have hx' : x ≠ name := fun h => hx h.symm
    simp [remaining, enter, hx, hx']

/-- To leave a name without a target changes nothing of what is ahead. -/
theorem remaining_leave
    (ho : InOrder ⟨roots, ⟨name, []⟩ :: stack, visited, onStack, found⟩) :
    remaining edges ⟨roots, stack, visited, onStack.erase name, found⟩ x =
      remaining edges ⟨roots, ⟨name, []⟩ :: stack, visited, onStack, found⟩ x := by
  by_cases hx : name = x
  · subst hx
    have hnames : name ∉ stack.map CycleFrame.name := (List.nodup_cons.1 ho.nodup_names).1
    have hvisited : name ∈ visited := ho.names.subset List.mem_cons_self
    rw [remaining_innermost, remaining_of_notMem_names hnames, if_pos hvisited]
  · rw [remaining_of_ne hx]
    rfl

end Remaining

/-! ### Accounts -/

/-- After `n` steps, which put some names on the stack and looked at some targets, what has been
done and what is ahead make up the edge map. -/
structure Accounts (edges : EdgeMap) (n : Nat) (pushes : List String)
    (looks : List (String × String × Nat)) (s : CycleSearch) : Prop where
  /-- The names that have been entered are those that were put on the stack. -/
  entered : pushes.reverse = s.visited
  /-- Only keys are entered. -/
  visited : ∀ x ∈ s.visited, x ∈ edges.keys
  /-- The roots are keys. -/
  roots : ∀ x ∈ s.roots, x ∈ edges.keys
  /-- A key that has not been entered is a root that is still ahead. -/
  ahead : ∀ x ∈ edges.keys, x ∈ s.visited ∨ x ∈ s.roots
  /-- The targets of a name are looked at from the first one on, and each once. -/
  targets : ∀ x, ∃ done, done ++ s.remaining edges x = edges.targets x ∧
    looksOf x looks = done.zipIdx
  /-- A step drops a root, leaves a name or looks at a target. -/
  steps : n + s.roots.length + s.stack.length =
    edges.keys.length + pushes.length + looks.length

theorem accounts_start (edges : EdgeMap) : Accounts edges 0 [] [] (start edges) where
  entered := rfl
  visited := by simp [start]
  roots := fun x hx => hx
  ahead := fun x hx => .inr hx
  targets := fun x => ⟨[], by simp [remaining, start], rfl⟩
  steps := by simp [start]

section Moves

variable {edges : EdgeMap} {n : Nat} {pushes : List String}
  {looks : List (String × String × Nat)} {roots : List String} {root name t : String}
  {rest : List String} {stack : List CycleFrame} {visited onStack : List String}
  {found found' : List (List String)}

/-- A key is entered; this is no step of its own. -/
theorem Accounts.enter {s : CycleSearch} (h : Accounts edges n pushes looks s)
    (ho : s.InOrder) (hk : name ∈ edges.keys) (hv : name ∉ s.visited) :
    Accounts edges n (pushes ++ [name]) looks (s.enter edges name) where
  entered := by rw [List.reverse_concat, h.entered]; rfl
  visited := List.forall_mem_cons.2 ⟨hk, h.visited⟩
  roots := h.roots
  ahead := fun x hx => (h.ahead x hx).imp_left (List.mem_cons_of_mem _)
  targets := fun x => by rw [remaining_enter ho hv]; exact h.targets x
  steps := by
    have := h.steps
    simp only [CycleSearch.enter, List.length_cons, List.length_append, List.length_nil]
    omega

/-- A root that has been entered is dropped. -/
theorem Accounts.dropRoot
    (h : Accounts edges n pushes looks ⟨root :: roots, stack, visited, onStack, found⟩)
    (hv : root ∈ visited) :
    Accounts edges (n + 1) pushes looks ⟨roots, stack, visited, onStack, found⟩ where
  entered := h.entered
  visited := h.visited
  roots := (List.forall_mem_cons.1 h.roots).2
  ahead := by
    intro x hx
    rcases h.ahead x hx with hx | hx
    · exact .inl hx
    · rcases List.mem_cons.1 hx with rfl | hx
      · exact .inl hv
      · exact .inr hx
  targets := h.targets
  steps := by
    have := h.steps
    simp only [List.length_cons] at this ⊢
    omega

/-- The innermost name is left. -/
theorem Accounts.leave
    (h : Accounts edges n pushes looks ⟨roots, ⟨name, []⟩ :: stack, visited, onStack, found⟩)
    (ho : InOrder ⟨roots, ⟨name, []⟩ :: stack, visited, onStack, found⟩) :
    Accounts edges (n + 1) pushes looks
      ⟨roots, stack, visited, onStack.erase name, found⟩ where
  entered := h.entered
  visited := h.visited
  roots := h.roots
  ahead := h.ahead
  targets := fun x => by rw [remaining_leave ho]; exact h.targets x
  steps := by
    have := h.steps
    simp only [List.length_cons] at this ⊢
    omega

/-- A target of the innermost name is looked at, whatever it leads to. -/
theorem Accounts.look
    (h : Accounts edges n pushes looks
      ⟨roots, ⟨name, t :: rest⟩ :: stack, visited, onStack, found⟩) :
    Accounts edges (n + 1) pushes
      (looks ++ [(name, t, (edges.targets name).length - (t :: rest).length)])
      ⟨roots, ⟨name, rest⟩ :: stack, visited, onStack, found'⟩ where
  entered := h.entered
  visited := h.visited
  roots := h.roots
  ahead := h.ahead
  targets := by
    intro x
    obtain ⟨done, htargets, hlooks⟩ := h.targets x
    rw [looksOf_concat, hlooks]
    by_cases hx : name = x
    · subst hx
      rw [remaining_innermost] at htargets
      have hplace : (edges.targets name).length - (t :: rest).length = done.length := by
        rw [← htargets, List.length_append]
        omega
      refine ⟨done ++ [t], ?_, ?_⟩
      · rw [remaining_innermost, ← htargets, List.append_assoc, List.singleton_append]
      · rw [if_pos rfl, hplace, List.zipIdx_append]
        simp
    · rw [remaining_of_ne hx] at htargets
      refine ⟨done, ?_, if_neg hx⟩
      rw [remaining_of_ne hx]
      exact htargets
  steps := by
    have := h.steps
    simp only [List.length_cons, List.length_append, List.length_nil] at this ⊢
    omega

end Moves

theorem Move.entered?_eq {edges : EdgeMap} {s s' : CycleSearch} (hm : Move edges s s') :
    s.entered? edges = if s.stack.length < s'.stack.length then s'.names.head? else none := by
  rw [entered?, hm.step_eq, Option.bind_some]

/-- Moves keep the accounts. -/
theorem Accounts.move {edges : EdgeMap} {s s' : CycleSearch} (hm : Move edges s s')
    (ho : s.InOrder) {n : Nat} {pushes : List String} {looks : List (String × String × Nat)}
    (h : Accounts edges n pushes looks s) :
    Accounts edges (n + 1) (pushes ++ (s.entered? edges).toList)
      (looks ++ (s.looked? edges).toList) s' := by
  rw [hm.entered?_eq]
  cases hm with
  | skipRoot hv => simpa [looked?] using h.dropRoot hv
  | @enterRoot root roots visited onStack found hv =>
      have hk : root ∈ edges.keys := h.roots root List.mem_cons_self
      simpa [looked?, names] using (h.enter ho hk hv).dropRoot List.mem_cons_self
  | leave => simpa [looked?] using h.leave ho
  | close hk hon => simpa [looked?] using h.look
  | pass hpass => simpa [looked?] using h.look
  | @enter roots name t rest stack visited onStack found hk hon hv =>
      have ho' : InOrder ⟨roots, ⟨name, rest⟩ :: stack, visited, onStack, found⟩ :=
        ⟨ho.onStack, ho.visited, ho.names, ho.found⟩
      simpa [looked?, names, CycleSearch.enter] using h.look.enter ho' hk hv

/-- The accounts of every state of a run. -/
theorem accounts_of_states {edges : EdgeMap} {past : List CycleSearch} {s : CycleSearch}
    {future : List CycleSearch} (h : (start edges).states edges = past ++ s :: future) :
    s.InOrder ∧ Accounts edges past.length (past.filterMap (entered? edges))
      (past.filterMap (looked? edges)) s := by
  refine states_induction (P := fun past s => s.InOrder ∧ Accounts edges past.length
    (past.filterMap (entered? edges)) (past.filterMap (looked? edges)) s)
    (fun hm h => ⟨h.1.move hm, ?_⟩) [] ⟨inOrder_start edges, accounts_start edges⟩ h
  rw [List.length_append, filterMap_concat, filterMap_concat]
  exact h.2.move hm h.1

/-! ### What the accounts say -/

section Consequences

variable {edges : EdgeMap} {n : Nat} {pushes : List String}
  {looks : List (String × String × Nat)} {s s' : CycleSearch}

/-- The targets of a name that has been left have all been looked at. -/
theorem Accounts.looksOf_of_left (h : Accounts edges n pushes looks s) {x : String}
    (hx : x ∈ s.visited) (hn : x ∉ s.names) : looksOf x looks = (edges.targets x).zipIdx := by
  obtain ⟨done, htargets, hlooks⟩ := h.targets x
  rw [remaining_of_notMem_names hn, if_pos hx, List.append_nil] at htargets
  rw [hlooks, htargets]

/-- A name that is kept beside the stack is found on the path. -/
theorem InOrder.isSome_findIdx? (h : s.InOrder) {t : String} (ht : t ∈ s.onStack) :
    (s.path.findIdx? (· == t)).isSome = true := by
  rw [List.findIdx?_isSome, List.any_eq_true]
  refine ⟨t, ?_, beq_self_eq_true t⟩
  rw [h.onStack] at ht
  exact List.mem_reverse.2 ht

/-- A root is tried when the stack is empty. -/
theorem Move.stack_eq_nil (hm : Move edges s s') (h : s'.roots ≠ s.roots) : s.stack = [] := by
  cases hm with
  | skipRoot hv => rfl
  | enterRoot hv => rfl
  | leave => exact absurd rfl h
  | close hk hon => exact absurd rfl h
  | pass hpass => exact absurd rfl h
  | enter hk hon hv => exact absurd rfl h

/-- The last state enters no name and looks at no target, so the accounts of the whole run are those
of its end. -/
theorem accounts_run (edges : EdgeMap) :
    let run := (start edges).run edges
    let states := (start edges).states edges
    run.InOrder ∧ ∃ n, states.length = n + 1 ∧
      Accounts edges n (states.filterMap (entered? edges)) (states.filterMap (looked? edges))
        run := by
  intro run states
  have hover : run.step edges = none := step_run edges (start edges)
  have hentered : entered? edges run = none := by rw [entered?, hover, Option.bind_none]
  have hlooked : looked? edges run = none := by rw [looked?, (step_eq_none_iff.1 hover).1]
  obtain ⟨past, hstates⟩ : ∃ past, states = past ++ [run] :=
    exists_states_eq_concat edges (start edges)
  obtain ⟨ho, haccounts⟩ := accounts_of_states hstates
  refine ⟨ho, past.length, by rw [hstates, List.length_append, List.length_singleton], ?_⟩
  rw [hstates, filterMap_concat, filterMap_concat, hentered, hlooked, Option.toList_none,
    Option.toList_none, List.append_nil, List.append_nil]
  exact haccounts

/-- When the search is over, every key has been put on the stack, and none twice. -/
theorem Accounts.perm_keys (h : Accounts edges n pushes looks s) (ho : s.InOrder)
    (hover : s.step edges = none) : pushes.Perm edges.keys := by
  have hroots : s.roots = [] := (step_eq_none_iff.1 hover).2
  refine (List.perm_ext_iff_of_nodup ?_ edges.nodup).2 fun x => ?_
  · rw [← List.nodup_reverse, h.entered]
    exact ho.visited
  · rw [← List.mem_reverse, h.entered]
    refine ⟨h.visited x, fun hx => (h.ahead x hx).resolve_right ?_⟩
    rw [hroots]
    exact List.not_mem_nil

/-- When the search is over, the targets of every name have been looked at. -/
theorem Accounts.looksOf_of_over (h : Accounts edges n pushes looks s)
    (hover : s.step edges = none) (x : String) : looksOf x looks = (edges.targets x).zipIdx := by
  obtain ⟨hstack, hroots⟩ := step_eq_none_iff.1 hover
  have hnames : x ∉ s.names := by simp [names, hstack]
  by_cases hx : x ∈ s.visited
  · exact h.looksOf_of_left hx hnames
  · -- a name that was not entered is no key, so it has no target
    have hk : x ∉ edges.keys := fun hk => by simpa [hx, hroots] using h.ahead x hk
    obtain ⟨done, htargets, hlooks⟩ := h.targets x
    rw [targets_of_notMem_keys hk] at htargets ⊢
    rw [hlooks, (List.append_eq_nil_iff.1 htargets).1]

/-- If every target of every name has been looked at once, there were as many looks as edges. -/
theorem length_eq_of_looksOf (h : ∀ x, looksOf x looks = (edges.targets x).zipIdx) :
    looks.length = edges.pairs.length := by
  have hperm : (looks.map Prod.fst).Perm (edges.pairs.map Prod.fst) := by
    refine List.perm_iff_count.2 fun x => ?_
    have hlooks : (looks.map Prod.fst).count x = (looksOf x looks).length := by
      rw [looksOf, List.length_map, ← List.countP_eq_length_filter, List.count, List.countP_map]
      rfl
    have hpairs : (edges.pairs.map Prod.fst).count x = (edges.targets x).length := by
      rw [← countP_fst_pairs, List.count, List.countP_map]
      rfl
    rw [hlooks, hpairs, h, List.length_zipIdx]
  simpa using hperm.length_eq

end Consequences

end CycleSearch

open CycleSearch (looksOf entered? looked?)

/-- **The search for cycles accounts for every step.**  In every state of the run, the names kept
beside the stack are those on the stack, none of them twice, and all of them have been entered; a
name that was entered and is not on the stack has had all its targets looked at, one after the
other; a name kept beside the stack is found on the path; and a root is tried only when the stack is
empty, and no name is kept beside it.  Over the whole run every key is put on the stack once, every
target of every name is looked at once, in its turn, and the search ends after two steps for each
key and one for each edge. -/
theorem cycleSearch_accounts_for_every_step (edges : EdgeMap) :
    let states := (CycleSearch.start edges).states edges
    (∀ (past : List CycleSearch) (s : CycleSearch) (future : List CycleSearch),
      states = past ++ s :: future →
      s.onStack = s.names ∧ s.names.Nodup ∧ s.onStack ⊆ s.visited ∧
      (∀ x ∈ s.visited, x ∉ s.names →
        looksOf x (past.filterMap (looked? edges)) = (edges.targets x).zipIdx) ∧
      (∀ t ∈ s.onStack, (s.path.findIdx? (· == t)).isSome = true) ∧
      (∀ s', s.step edges = some s' → s'.roots ≠ s.roots → s.stack = [] ∧ s.onStack = [])) ∧
    (states.filterMap (entered? edges)).Perm edges.keys ∧
    (∀ x, looksOf x (states.filterMap (looked? edges)) = (edges.targets x).zipIdx) ∧
    states.length = 2 * edges.keys.length + edges.pairs.length + 1 ∧
    states.getLast? = some ((CycleSearch.start edges).run edges) ∧
    ((CycleSearch.start edges).run edges).step edges = none := by
  intro states
  have hover := CycleSearch.step_run edges (CycleSearch.start edges)
  obtain ⟨ho, n, hlength, haccounts⟩ := CycleSearch.accounts_run edges
  have hkeys := haccounts.perm_keys ho hover
  have hlooks := haccounts.looksOf_of_over hover
  refine ⟨fun past s future hsplit => ?_, hkeys, hlooks, ?_, ?_, hover⟩
  · obtain ⟨ho, haccounts⟩ := CycleSearch.accounts_of_states hsplit
    refine ⟨ho.onStack, ho.nodup_names, ?_, fun x hx hn => haccounts.looksOf_of_left hx hn,
      fun t ht => ho.isSome_findIdx? ht, fun s' hstep hne => ?_⟩
    · rw [ho.onStack]
      exact ho.names.subset
    · have hnil := (CycleSearch.move_of_step hstep).stack_eq_nil hne
      exact ⟨hnil, by rw [ho.onStack, CycleSearch.names, hnil, List.map_nil]⟩
  · obtain ⟨hstack, hroots⟩ := CycleSearch.step_eq_none_iff.1 hover
    have hsteps := haccounts.steps
    rw [hroots, hstack, hkeys.length_eq, CycleSearch.length_eq_of_looksOf hlooks] at hsteps
    simp only [List.length_nil] at hsteps
    calc states.length = n + 1 := hlength
      _ = 2 * edges.keys.length + edges.pairs.length + 1 := by omega
  · obtain ⟨past, hstates⟩ := CycleSearch.exists_states_eq_concat edges (CycleSearch.start edges)
    rw [show states = _ from hstates, List.getLast?_concat]

/-- A module with a repeated target and one that is no key: a state after its first target has been
left, and the state in which the last root is tried. -/
theorem cycleSearch_accounts_for_repeated_target :
    let edges : EdgeMap := .ofList [("a", ["b", "x", "b"]), ("b", ["a"]), ("c", ["a"])]
    let states := (CycleSearch.start edges).states edges
    let s : CycleSearch :=
      ⟨["b", "c"], [⟨"a", ["x", "b"]⟩], ["b", "a"], ["a"], [["a", "b", "a"]]⟩
    let s' : CycleSearch := ⟨["c"], [], ["b", "a"], [], [["a", "b", "a"]]⟩
    states = states.take 4 ++ s :: states.drop 5 ∧ "b" ∈ s.visited ∧ "b" ∉ s.names ∧
    looksOf "b" ((states.take 4).filterMap (looked? edges)) = [("a", 0)] ∧
    (s.path.findIdx? (· == "a")).isSome = true ∧
    states = states.take 8 ++ s' :: states.drop 9 ∧ s'.stack = [] ∧ s'.onStack = [] ∧
    looksOf "a" (states.filterMap (looked? edges)) = [("b", 0), ("x", 1), ("b", 2)] ∧
    states.length = 12 := by
  intro edges states s s'
  obtain ⟨hstates, -, hlooks, hlength, -⟩ := cycleSearch_accounts_for_every_step edges
  have hsplit : states = states.take 4 ++ s :: states.drop 5 := by decide +kernel
  have hsplit' : states = states.take 8 ++ s' :: states.drop 9 := by decide +kernel
  have hstep : s'.step edges =
      some ⟨[], [⟨"c", ["a"]⟩], ["c", "b", "a"], ["c"], [["a", "b", "a"]]⟩ := by decide +kernel
  have hleft : "b" ∈ s.visited ∧ "b" ∉ s.names := by decide +kernel
  obtain ⟨-, -, -, hlooked, hfound, -⟩ := hstates _ s _ hsplit
  obtain ⟨-, -, -, -, -, hroot⟩ := hstates _ s' _ hsplit'
  obtain ⟨hstack, honStack⟩ := hroot _ hstep (by decide)
  exact ⟨hsplit, hleft.1, hleft.2, hlooked "b" hleft.1 hleft.2, hfound "a" (by decide), hsplit',
    hstack, honStack, hlooks "a", hlength⟩

end ModuleDeps.EdgeMap
