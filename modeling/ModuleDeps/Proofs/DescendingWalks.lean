/-
Descending walks.

The search for depths reads a zero for a target that has been entered and not left.  On an edge map
with cycles the depths hang on the order of keys and targets therefore, and they are no lengths of
longest walks.  Each is the length of some walk nevertheless, and of one that does not come back to
a name before its last edge: when a name is left with a depth above one, a target that was left
before has just one less, so that the depths fall by one from name to name.

What the search can do next is written out first, move by move.  The invariant says that every
number, on the stack or in the table, is backed by a target with that depth.

Main definitions:

* `ModuleDeps.EdgeMap.Descends` — each depth of a table rests on that of a target;
* `ModuleDeps.EdgeMap.DepthSearch.Move` — what the search for depths can do next;
* `ModuleDeps.EdgeMap.DepthSearch.Reached` — the states that the search comes through;
* `ModuleDeps.EdgeMap.Founded` — the invariant of the search.

Main results:

* `ModuleDeps.EdgeMap.Descends.exists_walk` — the walk behind a depth;
* `ModuleDeps.EdgeMap.Founded.move`, `ModuleDeps.EdgeMap.founded_of_reached` — moves keep the
  invariant, and so it holds in every state;
* `ModuleDeps.EdgeMap.descends_depths` — the depths of an edge map descend.
-/

import ModuleDeps.Proofs.Walks

set_option relaxedAutoImplicit false
set_option autoImplicit false

namespace ModuleDeps.EdgeMap

/-! ### Tables that descend -/

/-- Every depth of the table rests on a target: a name of depth zero has none, and from a name that
is deeper than one an edge leads to a name that is just one less deep. -/
structure Descends (edges : EdgeMap) (known : NameTable Nat) : Prop where
  /-- The depth is zero exactly where there is no target. -/
  zero : ∀ x d, known.get? x = some d → (d = 0 ↔ edges.targets x = [])
  /-- A greater depth is that of a target and one. -/
  succ : ∀ x d, known.get? x = some (d + 1) → d ≠ 0 →
    ∃ t, edges.Edge x t ∧ known.get? t = some d

namespace Descends

variable {edges : EdgeMap} {known : NameTable Nat}

/-- **The walk behind a depth.**  From a name of depth `d` there is a walk of `d` edges, whose names
but the last are distinct and have targets and depths of their own, none greater than `d`. -/
theorem exists_walk (h : Descends edges known) (d : Nat) :
    ∀ m, known.get? m = some d → ∃ names, edges.IsWalkFrom m names ∧ names.length = d ∧
      ((m :: names).take d).Nodup ∧
      ∀ x ∈ (m :: names).take d, edges.targets x ≠ [] ∧ ∃ k ≤ d, known.get? x = some k := by
  induction d with
  | zero =>
      intro m _
      exact ⟨[], isWalkFrom_nil edges m, rfl, by simp, by simp⟩
  | succ d ih =>
      intro m hm
      have htargets : edges.targets m ≠ [] := fun hnil =>
        absurd ((h.zero m _ hm).2 hnil) (Nat.succ_ne_zero d)
      by_cases hd : d = 0
      · -- any target will do, also one whose depth was not known in time
        subst hd
        obtain ⟨t, ht⟩ := List.exists_mem_of_ne_nil _ htargets
        refine ⟨[t], isWalkFrom_cons.2 ⟨ht, isWalkFrom_nil edges t⟩, rfl, by simp, ?_⟩
        simpa using ⟨htargets, 1, Nat.le_refl 1, hm⟩
      · obtain ⟨t, hedge, ht⟩ := h.succ m d hm hd
        obtain ⟨names, hwalk, hlength, hnodup, hnames⟩ := ih t ht
        refine ⟨t :: names, isWalkFrom_cons.2 ⟨hedge, hwalk⟩, by rw [List.length_cons, hlength],
          ?_, ?_⟩
        · -- the name is deeper than all that follow
          refine List.nodup_cons.2 ⟨fun hmem => ?_, hnodup⟩
          obtain ⟨-, k, hk, hget⟩ := hnames m hmem
          rw [hm, Option.some.injEq] at hget
          omega
        · intro x hx
          rcases List.mem_cons.1 hx with rfl | hx
          · exact ⟨htargets, d + 1, Nat.le_refl _, hm⟩
          · obtain ⟨hne, k, hk, hget⟩ := hnames x hx
            exact ⟨hne, k, Nat.le_succ_of_le hk, hget⟩

end Descends

/-! ### Moves of the search -/

namespace DepthSearch

/-- What the search for depths can do next. -/
inductive Move (edges : EdgeMap) : DepthSearch → DepthSearch → Prop
  /-- A root that has been entered before is dropped. -/
  | skipRoot {root roots visited known} (hv : root ∈ visited) :
      Move edges ⟨root :: roots, [], visited, known⟩ ⟨roots, [], visited, known⟩
  /-- A new root is entered. -/
  | enterRoot {root roots visited known} (hv : root ∉ visited) :
      Move edges ⟨root :: roots, [], visited, known⟩
        ⟨roots, [⟨root, edges.targets root, 0⟩], root :: visited, known⟩
  /-- The innermost name has no target left: it is left, and its depth is told to the next one. -/
  | leave {roots name deepest stack visited known} :
      Move edges ⟨roots, ⟨name, [], deepest⟩ :: stack, visited, known⟩
        ⟨roots, tell (depthOf edges ⟨name, [], deepest⟩) stack, visited,
          known.insert name (depthOf edges ⟨name, [], deepest⟩)⟩
  /-- A target that has been entered before counts with the depth that is known for it. -/
  | read {roots name t rest deepest stack visited known} (hv : t ∈ visited) :
      Move edges ⟨roots, ⟨name, t :: rest, deepest⟩ :: stack, visited, known⟩
        ⟨roots, ⟨name, rest, max deepest ((known.get? t).getD 0)⟩ :: stack, visited, known⟩
  /-- A new target is entered. -/
  | enter {roots name t rest deepest stack visited known} (hv : t ∉ visited) :
      Move edges ⟨roots, ⟨name, t :: rest, deepest⟩ :: stack, visited, known⟩
        ⟨roots, ⟨t, edges.targets t, 0⟩ :: ⟨name, rest, deepest⟩ :: stack, t :: visited, known⟩

/-- Each step of the search is one of the moves. -/
theorem move_of_step {edges : EdgeMap} {s s' : DepthSearch} (h : s.step edges = some s') :
    Move edges s s' := by
  obtain ⟨roots, stack, visited, known⟩ := s
  match stack, roots with
  | [], [] => simp [step] at h
  | [], root :: roots =>
      simp only [step, Option.some.injEq] at h
      by_cases hv : root ∈ visited
      · rw [if_pos hv] at h
        exact h ▸ .skipRoot hv
      · rw [if_neg hv] at h
        exact h ▸ .enterRoot hv
  | ⟨name, [], deepest⟩ :: stack, roots =>
      simp only [step, Option.some.injEq] at h
      exact h ▸ .leave
  | ⟨name, t :: rest, deepest⟩ :: stack, roots =>
      simp only [step, look, Option.some.injEq] at h
      by_cases hv : t ∈ visited
      · rw [if_pos hv] at h
        exact h ▸ .read hv
      · rw [if_neg hv] at h
        exact h ▸ .enter hv

/-- The states that the search comes through from its start. -/
def Reached (edges : EdgeMap) : DepthSearch → Prop :=
  Relation.ReflTransGen (fun s s' => s.step edges = some s') (start edges)

/-- From a state that the search comes through it goes on to its end. -/
theorem Reached.run {edges : EdgeMap} {s : DepthSearch} (h : Reached edges s) :
    Reached edges (s.run edges) := by
  induction s using DepthSearch.run.induct edges with
  | case1 s hover => rwa [run_of_over hover]
  | case2 s s' hstep _ ih =>
      rw [run_of_step hstep]
      exact ih (h.tail hstep)

end DepthSearch

/-! ### What the search keeps -/

open DepthSearch (depthOf Move Reached)

/-- The number of a frame is backed by a target: it is zero, or the depth of one. -/
def Backed (edges : EdgeMap) (known : NameTable Nat) (frame : DepthFrame) : Prop :=
  frame.deepest = 0 ∨ ∃ t, edges.Edge frame.name t ∧ known.get? t = some frame.deepest

/-- What holds while the search for depths walks. -/
structure Founded (edges : EdgeMap) (s : DepthSearch) : Prop where
  /-- No name is twice on the stack. -/
  nodup : s.names.Nodup
  /-- Each name on the stack is a target of the name below it. -/
  chain : s.names.IsChain fun x y => edges.Edge y x
  /-- The depths of the names on the stack are not known yet. -/
  unknown : ∀ x ∈ s.names, x ∉ s.known.names
  /-- What is on the stack or known has been entered. -/
  entered : ∀ x, x ∈ s.names ∨ x ∈ s.known.names → x ∈ s.visited
  /-- What is still to be looked at is a target. -/
  rests : RestsOk edges s.stack
  /-- The known depths rest on targets. -/
  descends : Descends edges s.known
  /-- The numbers on the stack are backed by targets. -/
  frames : ∀ frame ∈ s.stack, Backed edges s.known frame

section Moves

variable {edges : EdgeMap} {known : NameTable Nat} {name t : String} {depth deepest : Nat}
  {rest : List String}

/-- A depth that is known stays known when a new name becomes known. -/
theorem get?_insert_of_known {d : Nat} (hname : name ∉ known.names) (ht : known.get? t = some d) :
    (known.insert name depth).get? t = some d := by
  have hne : name ≠ t := by
    rintro rfl
    rw [NameTable.get?_eq_none_iff.2 hname] at ht
    cases ht
  rw [NameTable.get?_insert, if_neg hne, ht]

theorem Backed.insert {frame : DepthFrame} (h : Backed edges known frame)
    (hname : name ∉ known.names) : Backed edges (known.insert name depth) frame := by
  rcases h with hzero | ⟨t, hedge, ht⟩
  · exact Or.inl hzero
  · exact Or.inr ⟨t, hedge, get?_insert_of_known hname ht⟩

/-- A frame that is told the depth of a target is backed as before, or by this target. -/
theorem Backed.told {rest' : List String} (h : Backed edges known ⟨name, rest, deepest⟩)
    (hedge : edges.Edge name t) (hdepth : depth = 0 ∨ known.get? t = some depth) :
    Backed edges known ⟨name, rest', max deepest depth⟩ := by
  rcases Nat.le_total depth deepest with hle | hle
  · rw [Nat.max_eq_left hle]
    exact h
  · rw [Nat.max_eq_right hle]
    rcases hdepth with hzero | hdepth
    · exact Or.inl hzero
    · exact Or.inr ⟨t, hedge, hdepth⟩

theorem depthOf_eq_zero_iff {frame : DepthFrame} :
    depthOf edges frame = 0 ↔ edges.targets frame.name = [] := by
  simp [depthOf]

/-- A name that is left gets a depth that rests on a target. -/
theorem Descends.insert (h : Descends edges known) (hname : name ∉ known.names)
    (hframe : Backed edges known ⟨name, [], deepest⟩) :
    Descends edges (known.insert name (depthOf edges ⟨name, [], deepest⟩)) where
  zero := by
    intro x d hx
    by_cases heq : name = x
    · subst heq
      rw [NameTable.get?_insert, if_pos rfl, Option.some.injEq] at hx
      rw [← hx]
      exact depthOf_eq_zero_iff
    · rw [NameTable.get?_insert, if_neg heq] at hx
      exact h.zero x d hx
  succ := by
    intro x d hx hd
    by_cases heq : name = x
    · subst heq
      rw [NameTable.get?_insert, if_pos rfl, Option.some.injEq, depthOf] at hx
      split at hx
      · cases hx
      · -- the number of the frame is not zero, so it is the depth of a target
        have hdeepest : deepest = d := Nat.succ.inj hx
        subst hdeepest
        obtain ⟨t, hedge, ht⟩ := hframe.resolve_left hd
        exact ⟨t, hedge, get?_insert_of_known hname ht⟩
    · rw [NameTable.get?_insert, if_neg heq] at hx
      obtain ⟨t, hedge, ht⟩ := h.succ x d hx hd
      exact ⟨t, hedge, get?_insert_of_known hname ht⟩

end Moves

theorem founded_start (edges : EdgeMap) : Founded edges (DepthSearch.start edges) where
  nodup := List.nodup_nil
  chain := .nil
  unknown := by simp [DepthSearch.start, DepthSearch.names]
  entered := by simp [DepthSearch.start, DepthSearch.names]
  rests := by simp [DepthSearch.start, RestsOk]
  descends := ⟨by simp [DepthSearch.start], by simp [DepthSearch.start]⟩
  frames := by simp [DepthSearch.start]

/-- Moves keep the numbers founded. -/
theorem Founded.move {edges : EdgeMap} {s s' : DepthSearch} (hmove : Move edges s s')
    (h : Founded edges s) : Founded edges s' := by
  obtain ⟨hnodup, hchain, hunknown, hentered, hrests, hdescends, hframes⟩ := h
  cases hmove with
  | skipRoot hv => exact ⟨hnodup, hchain, hunknown, hentered, hrests, hdescends, hframes⟩
  | @enterRoot root roots visited known hv =>
      exact
        { nodup := by simp [DepthSearch.names]
          chain := .singleton root
          unknown := by grind [DepthSearch.names]
          entered := by grind [DepthSearch.names]
          rests := hrests.enter root
          descends := hdescends
          frames := by simp [Backed] }
  | @leave roots name deepest stack visited known =>
      have hname : name ∉ known.names := hunknown name List.mem_cons_self
      have hframe : Backed edges known ⟨name, [], deepest⟩ := hframes _ List.mem_cons_self
      simp only [DepthSearch.names, List.map_cons, List.nodup_cons] at hnodup hchain
      exact
        { nodup := by simpa [DepthSearch.names] using hnodup.2
          chain := by simpa [DepthSearch.names] using hchain.of_cons
          unknown := by
            simp only [DepthSearch.names, DepthSearch.map_name_tell, NameTable.mem_names_insert]
            grind [DepthSearch.names]
          entered := by
            simp only [DepthSearch.names, DepthSearch.map_name_tell, NameTable.mem_names_insert]
            grind [DepthSearch.names]
          rests := RestsOk.tell (fun f hf => hrests f (List.mem_cons_of_mem _ hf)) _
          descends := hdescends.insert hname hframe
          frames := by
            cases stack with
            | nil => simp [DepthSearch.tell]
            | cons parent stack =>
                have hkept : ∀ f ∈ parent :: stack, Backed edges
                    (known.insert name (depthOf edges ⟨name, [], deepest⟩)) f := fun f hf =>
                  (hframes f (List.mem_cons_of_mem _ hf)).insert hname
                obtain ⟨hparent, hbelow⟩ := List.forall_mem_cons.1 hkept
                -- the name that is left is the target that backs the number told to its parent
                have hedge : edges.Edge parent.name name := (List.isChain_cons_cons.1 hchain).1
                exact List.forall_mem_cons.2 ⟨hparent.told hedge (Or.inr (by simp)), hbelow⟩ }
  | @read roots name t rest deepest stack visited known hv =>
      have hedge : edges.Edge name t := hrests _ List.mem_cons_self t List.mem_cons_self
      -- a target that has not been left yet counts as zero
      have hdepth : (known.get? t).getD 0 = 0 ∨ known.get? t = some ((known.get? t).getD 0) := by
        cases known.get? t with
        | none => exact Or.inl rfl
        | some d => exact Or.inr rfl
      obtain ⟨hframe, hbelow⟩ := List.forall_mem_cons.1 hframes
      exact ⟨hnodup, hchain, hunknown, hentered, hrests.look _, hdescends,
        List.forall_mem_cons.2 ⟨hframe.told hedge hdepth, hbelow⟩⟩
  | @enter roots name t rest deepest stack visited known hv =>
      have hedge : edges.Edge name t := hrests _ List.mem_cons_self t List.mem_cons_self
      obtain ⟨hframe, hbelow⟩ := List.forall_mem_cons.1 hframes
      exact
        { nodup := List.nodup_cons.2 ⟨fun ht => hv (hentered t (Or.inl ht)), hnodup⟩
          chain := List.isChain_cons_cons.2 ⟨hedge, hchain⟩
          unknown := by grind [DepthSearch.names]
          entered := by grind [DepthSearch.names]
          rests := (hrests.look _).enter t
          descends := hdescends
          frames := List.forall_mem_cons.2
            ⟨Or.inl rfl, List.forall_mem_cons.2 ⟨hframe, hbelow⟩⟩ }

/-- The invariant holds in every state that the search comes through. -/
theorem founded_of_reached {edges : EdgeMap} {s : DepthSearch} (h : Reached edges s) :
    Founded edges s := by
  induction h with
  | refl => exact founded_start edges
  | tail _ hstep ih => exact ih.move (DepthSearch.move_of_step hstep)

theorem descends_depths (edges : EdgeMap) : Descends edges edges.depths :=
  (founded_of_reached (Reached.run (.refl : Reached edges (DepthSearch.start edges)))).descends

end ModuleDeps.EdgeMap
