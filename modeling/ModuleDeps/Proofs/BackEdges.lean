/-
Back edges, and the depths that they leave.

The last edge of a cycle that the search finds leads back to a name that has not been left yet.  The
search for depths reads a zero there, and the depth of the target everywhere else.  Since the two
searches walk side by side (`ModuleDeps.EdgeMap.run_together`), the edges at which the second one
reads a zero too early are just the edges that close a cycle of the first one, and so the cycles
determine the depths of an edge map, cyclic or not.

The proof carries two invariants along the joint moves.  `Placed` says where the names are: those
that are entered and not known are on the stack, and a closing edge of a name on the stack leads
below it.  `Measured` says what the numbers mean: a known depth obeys the equation, and a number on
the stack is the greatest depth among the targets already looked at.

Main definitions:

* `ModuleDeps.EdgeMap.Closes` — an edge closes one of the cycles;
* `ModuleDeps.EdgeMap.across` — what an edge contributes to the depth of its source;
* `ModuleDeps.EdgeMap.Placed`, `ModuleDeps.EdgeMap.Measured` — the invariants.

Main results:

* `ModuleDeps.EdgeMap.mem_names_depths_iff` — exactly the keys and the targets have a depth;
* `ModuleDeps.EdgeMap.get?_depths` — the equation that the depths obey;
* `ModuleDeps.EdgeMap.depths_determined_by_cycles` — the depth table is determined by the cycles.
-/

import ModuleDeps.Proofs.SearchesInStep

set_option relaxedAutoImplicit false
set_option autoImplicit false

namespace ModuleDeps.EdgeMap

open DepthSearch (tell depthOf)

/-! ### Closing edges -/

/-- The edge from `x` to `y` closes one of the cycles: it is the last edge of it. -/
def Closes (cycles : List (List String)) (x y : String) : Prop :=
  ∃ cycle ∈ cycles, [x, y] <:+ cycle

instance (cycles : List (List String)) (x y : String) : Decidable (Closes cycles x y) :=
  inferInstanceAs (Decidable (∃ cycle ∈ cycles, [x, y] <:+ cycle))

@[simp] theorem not_closes_nil (x y : String) : ¬ Closes [] x y := by
  simp [Closes]

theorem closes_cons {cycle : List String} {cycles : List (List String)} {x y : String} :
    Closes (cycle :: cycles) x y ↔ [x, y] <:+ cycle ∨ Closes cycles x y := by
  simp [Closes]

@[simp] theorem closes_reverse {cycles : List (List String)} {x y : String} :
    Closes cycles.reverse x y ↔ Closes cycles x y := by
  simp [Closes]

/-- A path that is followed from one of its names on still ends in its last name. -/
theorem pathFrom_reverse_cons (t name : String) (below : List String) :
    ∃ front, pathFrom t (name :: below).reverse = front ++ [name] := by
  have hle : ((name :: below).reverse.findIdx? (· == t)).getD 0 ≤ below.reverse.length := by
    cases hi : (name :: below).reverse.findIdx? (· == t) with
    | none => simp
    | some i =>
        obtain ⟨hlt, -⟩ := List.findIdx?_eq_some_iff_getElem.1 hi
        simp only [List.length_reverse, List.length_cons] at hlt
        simp only [Option.getD_some, List.length_reverse]
        omega
  refine ⟨below.reverse.drop (((name :: below).reverse.findIdx? (· == t)).getD 0), ?_⟩
  rw [pathFrom, List.reverse_cons, List.drop_append_of_le_length]
  rwa [List.reverse_cons] at hle

/-- The cycle found at a target `t` of the innermost name is closed by the edge to `t` alone. -/
theorem closes_path_cons {t name x y : String} {below : List String} {cycles : List (List String)} :
    Closes ((pathFrom t (name :: below).reverse ++ [t]) :: cycles) x y ↔
      (x = name ∧ y = t) ∨ Closes cycles x y := by
  obtain ⟨front, hfront⟩ := pathFrom_reverse_cons t name below
  rw [closes_cons, hfront, List.append_assoc]
  refine or_congr_left ⟨?_, ?_⟩
  · rintro ⟨l, hl⟩
    obtain ⟨-, h⟩ := List.append_inj' hl rfl
    simpa using h
  · rintro ⟨rfl, rfl⟩
    exact ⟨front, rfl⟩

/-! ### Depths across edges -/

/-- What the edge from `x` to `y` contributes to the depth of `x`: nothing if it closes one of the
cycles, and otherwise the depth known for `y`. -/
def across (cycles : List (List String)) (known : NameTable Nat) (x y : String) : Nat :=
  if Closes cycles x y then 0 else (known.get? y).getD 0

theorem across_of_closes {cycles : List (List String)} {known : NameTable Nat} {x y : String}
    (h : Closes cycles x y) : across cycles known x y = 0 :=
  if_pos h

theorem across_of_not_closes {cycles : List (List String)} {known : NameTable Nat} {x y : String}
    (h : ¬ Closes cycles x y) : across cycles known x y = (known.get? y).getD 0 :=
  if_neg h

/-- An unknown name contributes nothing, whether or not the edge to it closes a cycle. -/
theorem across_of_unknown {cycles : List (List String)} {known : NameTable Nat} {x y : String}
    (h : y ∉ known.names) : across cycles known x y = 0 := by
  rw [across, NameTable.get?_eq_none_iff.2 h]
  simp

theorem across_reverse (cycles : List (List String)) (known : NameTable Nat) :
    across cycles.reverse known = across cycles known := by
  funext x y
  simp [across]

/-- The greatest number that a list of names is given. -/
def deepestOf (depth : String → Nat) (names : List String) : Nat :=
  (names.map depth).foldl max 0

@[simp] theorem deepestOf_concat (depth : String → Nat) (names : List String) (t : String) :
    deepestOf depth (names ++ [t]) = max (deepestOf depth names) (depth t) := by
  simp [deepestOf]

theorem deepestOf_congr {depth depth' : String → Nat} {names : List String}
    (h : ∀ t ∈ names, depth t = depth' t) : deepestOf depth names = deepestOf depth' names := by
  rw [deepestOf, deepestOf, List.map_congr_left h]

/-- Of a list that is not empty, the greatest number is its maximum. -/
theorem max?_eq_deepestOf {depth : String → Nat} {names : List String} (h : names ≠ []) :
    (names.map depth).max? = some (deepestOf depth names) := by
  cases names with
  | nil => exact absurd rfl h
  | cons t ts => rw [List.map_cons, List.max?_cons', deepestOf, List.map_cons, List.foldl_cons,
      Nat.zero_max]

/-- The depth of a name by what its edges contribute. -/
def depthFrom (edges : EdgeMap) (cycles : List (List String)) (known : NameTable Nat)
    (x : String) : Nat :=
  if (edges.targets x).isEmpty then 0
  else deepestOf (across cycles known x) (edges.targets x) + 1

/-! ### Where the names are -/

/-- The closing edges of each name of a stack lead to the name itself or to names below it. -/
def ClosesBelow (found : List (List String)) : List String → Prop
  | [] => True
  | x :: below => (∀ y, Closes found x y → y ∈ x :: below) ∧ ClosesBelow found below

/-- What the frames of a stack have still to look at are targets of their names. -/
def RestsOk (edges : EdgeMap) (stack : List DepthFrame) : Prop :=
  ∀ frame ∈ stack, ∀ t ∈ frame.rest, t ∈ edges.targets frame.name

/-- Where the names are while both searches walk. -/
structure Placed (edges : EdgeMap) (found : List (List String)) (d : DepthSearch) : Prop where
  /-- Only keys are roots. -/
  roots : ∀ r ∈ d.roots, r ∈ edges.keys
  /-- Every key is still a root or has been entered. -/
  keys : ∀ k ∈ edges.keys, k ∈ d.roots ∨ k ∈ d.visited
  /-- No name is twice on the stack. -/
  nodup : d.names.Nodup
  /-- Only keys that have been entered are on the stack. -/
  names : ∀ x ∈ d.names, x ∈ edges.keys ∧ x ∈ d.visited
  /-- What is still to be looked at is a target. -/
  rests : RestsOk edges d.stack
  /-- The names entered and not known are those on the stack. -/
  known : ∀ x, x ∈ d.known.names ↔ x ∈ d.visited ∧ x ∉ d.names
  /-- Only keys and targets are entered. -/
  visited : ∀ x ∈ d.visited, x ∈ edges.keys ∨ x ∈ edges.allTargets
  /-- Both ends of a closing edge have been entered. -/
  closes : ∀ x y, Closes found x y → x ∈ d.visited ∧ y ∈ d.visited
  /-- Closing edges lead down the stack. -/
  below : ClosesBelow found d.names

/-- A cycle closed at the innermost name leaves the closing edges of the others alone. -/
theorem ClosesBelow.close {found : List (List String)} {t name : String} {below : List String}
    (h : ClosesBelow found (name :: below)) (hn : (name :: below).Nodup) (ht : t ∈ name :: below) :
    ClosesBelow ((pathFrom t (name :: below).reverse ++ [t]) :: found) (name :: below) := by
  have hrest : ∀ names, name ∉ names → ClosesBelow found names →
      ClosesBelow ((pathFrom t (name :: below).reverse ++ [t]) :: found) names := by
    intro names
    induction names with
    | nil => intro _ _; trivial
    | cons x xs ih =>
        intro hx hc
        refine ⟨fun y hy => ?_, ih (fun h => hx (List.mem_cons_of_mem _ h)) hc.2⟩
        rcases closes_path_cons.1 hy with ⟨rfl, -⟩ | hy
        · exact absurd List.mem_cons_self hx
        · exact hc.1 y hy
  refine ⟨fun y hy => ?_, hrest below (List.nodup_cons.1 hn).1 h.2⟩
  rcases closes_path_cons.1 hy with ⟨-, rfl⟩ | hy
  · exact ht
  · exact h.1 y hy

theorem placed_start (edges : EdgeMap) : Placed edges [] (DepthSearch.start edges) where
  roots := fun _ hr => hr
  keys := fun _ hk => Or.inl hk
  nodup := List.nodup_nil
  names := by simp [DepthSearch.start, DepthSearch.names]
  rests := by simp [DepthSearch.start, RestsOk]
  known := by simp [DepthSearch.start]
  visited := by simp [DepthSearch.start]
  closes := by simp
  below := trivial

section Moves

variable {edges : EdgeMap} {found found' : List (List String)} {d d' : DepthSearch}
  {name t : String} {rest : List String} {deepest : Nat} {stack : List DepthFrame}

theorem RestsOk.look (h : RestsOk edges (⟨name, t :: rest, deepest⟩ :: stack)) (deepest' : Nat) :
    RestsOk edges (⟨name, rest, deepest'⟩ :: stack) := by
  intro frame hf u hu
  rcases List.mem_cons.1 hf with rfl | hf
  · exact h ⟨name, t :: rest, deepest⟩ List.mem_cons_self u (List.mem_cons_of_mem _ hu)
  · exact h frame (List.mem_cons_of_mem _ hf) u hu

theorem RestsOk.enter (h : RestsOk edges stack) (t : String) :
    RestsOk edges (⟨t, edges.targets t, 0⟩ :: stack) := by
  intro frame hf u hu
  rcases List.mem_cons.1 hf with rfl | hf
  · exact hu
  · exact h frame hf u hu

theorem RestsOk.tell (h : RestsOk edges stack) (depth : Nat) :
    RestsOk edges (tell depth stack) := by
  cases stack with
  | nil => exact h
  | cons frame stack =>
      intro g hg u hu
      rcases List.mem_cons.1 hg with rfl | hg
      · exact h frame List.mem_cons_self u hu
      · exact h g (List.mem_cons_of_mem _ hg) u hu

/-- A target of the innermost name is a target of the edge map. -/
theorem RestsOk.mem_allTargets (h : RestsOk edges (⟨name, t :: rest, deepest⟩ :: stack)) :
    t ∈ edges.allTargets :=
  mem_allTargets_iff.2 ⟨name, h _ List.mem_cons_self t List.mem_cons_self⟩

/-- Joint moves keep the names in their places. -/
theorem Placed.joint (hj : Joint edges found d found' d') (h : Placed edges found d) :
    Placed edges found' d' := by
  obtain ⟨hroots, hkeys, hnodup, hnames, hrests, hknown, hvisited, hcloses, hbelow⟩ := h
  cases hj with
  | @skipRoot root roots visited known hk hv =>
      have hkeys' : ∀ k ∈ edges.keys, k ∈ roots ∨ k ∈ visited := by
        intro k hk
        rcases hkeys k hk with h | h
        · rcases List.mem_cons.1 h with rfl | h
          · exact Or.inr hv
          · exact Or.inl h
        · exact Or.inr h
      exact ⟨fun r hr => hroots r (List.mem_cons_of_mem _ hr), hkeys', hnodup, hnames, hrests,
        hknown, hvisited, hcloses, hbelow⟩
  | @enterRoot root roots visited known hk hv =>
      simp only [DepthSearch.names, List.map_nil] at hknown
      exact
        { roots := fun r hr => hroots r (List.mem_cons_of_mem _ hr)
          keys := by grind
          nodup := by simp [DepthSearch.names]
          names := by simpa [DepthSearch.names] using hk
          rests := hrests.enter _
          known := by grind [DepthSearch.names]
          visited := by grind
          closes := by grind
          -- no edge of a name that had not been entered closes a cycle
          below := ⟨fun y hy => absurd (hcloses _ y hy).1 hv, trivial⟩ }
  | @leave roots name deepest stack visited known =>
      simp only [DepthSearch.names, List.map_cons, List.nodup_cons] at hnodup hnames hknown hbelow
      have hnames' : (tell (depthOf edges ⟨name, [], deepest⟩) stack).map DepthFrame.name =
          stack.map DepthFrame.name := DepthSearch.map_name_tell _ _
      exact
        { roots := hroots
          keys := hkeys
          nodup := by simpa [DepthSearch.names] using hnodup.2
          names := by grind [DepthSearch.names]
          rests := RestsOk.tell (fun f hf => hrests f (List.mem_cons_of_mem _ hf)) _
          -- the name has been entered, and it is nowhere else on the stack
          known := by
            simp only [DepthSearch.names, hnames', NameTable.mem_names_insert]
            grind
          visited := hvisited
          closes := hcloses
          below := by simpa [DepthSearch.names] using hbelow.2 }
  | close hk hv ho =>
      refine ⟨hroots, hkeys, hnodup, hnames, hrests.look _, hknown, hvisited, ?_, ?_⟩
      · intro x y hxy
        rcases closes_path_cons.1 hxy with ⟨rfl, rfl⟩ | hxy
        · exact ⟨(hnames _ List.mem_cons_self).2, hv⟩
        · exact hcloses x y hxy
      · exact hbelow.close hnodup ho
  | pass hv ho =>
      exact ⟨hroots, hkeys, hnodup, hnames, hrests.look _, hknown, hvisited, hcloses, hbelow⟩
  | @leaf roots name t rest deepest stack visited known hk hv =>
      have ht : t ∈ edges.allTargets := hrests.mem_allTargets
      -- a leaf is no key, so it is not on the stack
      have ho : t ∉ DepthSearch.names ⟨roots, ⟨name, rest, deepest⟩ :: stack, visited, known⟩ :=
        fun h => hk (hnames t h).1
      exact
        { roots := hroots
          keys := by grind
          nodup := hnodup
          names := by grind [DepthSearch.names]
          rests := hrests.look _
          known := by
            simp only [DepthSearch.names, List.map_cons, NameTable.mem_names_insert] at hknown ho ⊢
            grind
          visited := by grind
          closes := by grind
          below := hbelow }
  | @enter roots name t rest deepest stack visited known hk hv ho =>
      have ht : t ∈ edges.allTargets := hrests.mem_allTargets
      simp only [DepthSearch.names, List.map_cons] at hnodup hnames hknown hbelow
      exact
        { roots := hroots
          keys := by grind
          nodup := List.nodup_cons.2 ⟨ho, hnodup⟩
          names := by grind [DepthSearch.names]
          rests := (hrests.look _).enter _
          known := by grind [DepthSearch.names]
          visited := by grind
          closes := by grind
          below := ⟨fun y hy => absurd (hcloses _ y hy).1 hv, hbelow⟩ }

/-! ### What the numbers mean -/

variable {known known' : NameTable Nat}

/-- The edges from `x` to the given names have been looked at: the names are known, or the edges to
them close cycles. -/
def Looked (found : List (List String)) (known : NameTable Nat) (x : String) (ts : List String) :
    Prop :=
  ∀ t ∈ ts, t ∈ known.names ∨ Closes found x t

/-- The number of a frame is the greatest depth among the targets that have been looked at.  The
names `child` stand between these and the targets that have not been looked at. -/
def FrameOk (edges : EdgeMap) (found : List (List String)) (known : NameTable Nat)
    (child : List String) (frame : DepthFrame) : Prop :=
  ∃ seen, edges.targets frame.name = seen ++ child ++ frame.rest ∧
    Looked found known frame.name seen ∧
    frame.deepest = deepestOf (across found known frame.name) seen

/-- Every frame of a stack has the right number; the frame above a frame is the target of it that is
being looked at. -/
def StackOk (edges : EdgeMap) (found : List (List String)) (known : NameTable Nat) :
    List String → List DepthFrame → Prop
  | _, [] => True
  | child, frame :: stack =>
    FrameOk edges found known child frame ∧ StackOk edges found known [frame.name] stack

/-- What the numbers mean while both searches walk. -/
structure Measured (edges : EdgeMap) (found : List (List String)) (d : DepthSearch) : Prop where
  /-- All edges of a known name have been looked at. -/
  looked : ∀ x ∈ d.known.names, Looked found d.known x (edges.targets x)
  /-- A known depth obeys the equation. -/
  depth : ∀ x ∈ d.known.names, d.known.get? x = some (edges.depthFrom found d.known x)
  /-- The numbers on the stack are right. -/
  stack : StackOk edges found d.known [] d.stack

/-- Nothing that has been looked at changes what it contributes. -/
def Keeps (found : List (List String)) (known : NameTable Nat) (found' : List (List String))
    (known' : NameTable Nat) : Prop :=
  ∀ x t, (t ∈ known.names ∨ Closes found x t) →
    (t ∈ known'.names ∨ Closes found' x t) ∧ across found' known' x t = across found known x t

/-- A name that becomes known has been looked at before only along closing edges. -/
theorem keeps_insert (ht : t ∉ known.names) (depth : Nat) :
    Keeps found known found (known.insert t depth) := by
  intro x u hu
  by_cases hc : Closes found x u
  · exact ⟨Or.inr hc, by rw [across_of_closes hc, across_of_closes hc]⟩
  · have hu := hu.resolve_right hc
    have hne : t ≠ u := fun h => ht (h ▸ hu)
    refine ⟨Or.inl (NameTable.mem_names_insert.2 (Or.inr hu)), ?_⟩
    rw [across_of_not_closes hc, across_of_not_closes hc, NameTable.get?_insert, if_neg hne]

/-- An edge that closes a cycle contributes nothing before it does so, for its target is unknown. -/
theorem keeps_close {below : List String} (ht : t ∉ known.names) :
    Keeps found known ((pathFrom t (name :: below).reverse ++ [t]) :: found) known := by
  intro x u hu
  by_cases hc : Closes found x u
  · have hc' : Closes ((pathFrom t (name :: below).reverse ++ [t]) :: found) x u :=
      closes_path_cons.2 (Or.inr hc)
    exact ⟨Or.inr hc', by rw [across_of_closes hc, across_of_closes hc']⟩
  · have hu := hu.resolve_right hc
    have hc' : ¬ Closes ((pathFrom t (name :: below).reverse ++ [t]) :: found) x u := by
      rw [closes_path_cons]
      rintro (⟨-, rfl⟩ | h)
      · exact ht hu
      · exact hc h
    exact ⟨Or.inl hu, by rw [across_of_not_closes hc, across_of_not_closes hc']⟩

theorem Looked.keep {x : String} {ts : List String} (hk : Keeps found known found' known')
    (h : Looked found known x ts) : Looked found' known' x ts :=
  fun t ht => (hk x t (h t ht)).1

/-- Targets that have been looked at keep their greatest depth. -/
theorem Looked.deepestOf_keep {x : String} {ts : List String}
    (hk : Keeps found known found' known') (h : Looked found known x ts) :
    deepestOf (across found' known' x) ts = deepestOf (across found known x) ts :=
  deepestOf_congr fun t ht => (hk x t (h t ht)).2

theorem Looked.depthFrom_keep {x : String} (hk : Keeps found known found' known')
    (h : Looked found known x (edges.targets x)) :
    edges.depthFrom found' known' x = edges.depthFrom found known x := by
  rw [depthFrom, depthFrom, h.deepestOf_keep hk]

theorem FrameOk.keep {child : List String} {frame : DepthFrame}
    (hk : Keeps found known found' known') (h : FrameOk edges found known child frame) :
    FrameOk edges found' known' child frame := by
  obtain ⟨seen, htargets, hlooked, hdeepest⟩ := h
  exact ⟨seen, htargets, hlooked.keep hk, by rw [hdeepest, hlooked.deepestOf_keep hk]⟩

theorem StackOk.keep {child : List String} (hk : Keeps found known found' known')
    (h : StackOk edges found known child stack) : StackOk edges found' known' child stack := by
  induction stack generalizing child with
  | nil => trivial
  | cons frame stack ih => exact ⟨h.1.keep hk, ih h.2⟩

/-- The target that is to be looked at next is the target that is being looked at. -/
theorem FrameOk.next (h : FrameOk edges found known [] ⟨name, t :: rest, deepest⟩) :
    FrameOk edges found known [t] ⟨name, rest, deepest⟩ := by
  obtain ⟨seen, htargets, hlooked, hdeepest⟩ := h
  exact ⟨seen, by simpa using htargets, hlooked, hdeepest⟩

/-- A frame is told what the edge to its target contributes. -/
theorem FrameOk.told {depth : Nat} (h : FrameOk edges found known [t] ⟨name, rest, deepest⟩)
    (ht : t ∈ known.names ∨ Closes found name t) (hdepth : across found known name t = depth) :
    FrameOk edges found known [] ⟨name, rest, max deepest depth⟩ := by
  obtain ⟨seen, htargets, hlooked, hdeepest⟩ := h
  refine ⟨seen ++ [t], by simpa using htargets, ?_, ?_⟩
  · intro u hu
    rcases List.mem_append.1 hu with hu | hu
    · exact hlooked u hu
    · rwa [List.mem_singleton.1 hu]
  · rw [deepestOf_concat, ← hdeepest, hdepth]

/-- A frame without a target left gives its name the right depth. -/
theorem FrameOk.left (h : FrameOk edges found known [] ⟨name, [], deepest⟩) :
    Looked found known name (edges.targets name) ∧
      depthOf edges ⟨name, [], deepest⟩ = edges.depthFrom found known name := by
  obtain ⟨seen, htargets, hlooked, hdeepest⟩ := h
  have hseen : edges.targets name = seen := by simpa using htargets
  refine ⟨by rw [hseen]; exact hlooked, ?_⟩
  rw [depthOf, depthFrom, hseen]
  exact congrArg (fun n => if seen.isEmpty = true then 0 else n + 1) hdeepest

theorem measured_start (edges : EdgeMap) : Measured edges [] (DepthSearch.start edges) where
  looked := by simp [DepthSearch.start]
  depth := by simp [DepthSearch.start]
  stack := trivial

/-- What is known stays right when one more name becomes known with the right depth. -/
theorem Measured.keep_insert (h : Measured edges found d) {x : String} {depth : Nat}
    (hx : x ∉ d.known.names) (hlooked : Looked found (d.known.insert x depth) x (edges.targets x))
    (hdepth : depth = edges.depthFrom found (d.known.insert x depth) x) :
    ∀ y ∈ (d.known.insert x depth).names,
      Looked found (d.known.insert x depth) y (edges.targets y) ∧
      (d.known.insert x depth).get? y =
        some (edges.depthFrom found (d.known.insert x depth) y) := by
  intro y hy
  have hk : Keeps found d.known found (d.known.insert x depth) := keeps_insert hx depth
  rcases NameTable.mem_names_insert.1 hy with rfl | hy
  · refine ⟨hlooked, ?_⟩
    rw [NameTable.get?_insert, if_pos rfl, ← hdepth]
  · have hne : x ≠ y := fun he => hx (he ▸ hy)
    refine ⟨(h.looked y hy).keep hk, ?_⟩
    rw [NameTable.get?_insert, if_neg hne, h.depth y hy, (h.looked y hy).depthFrom_keep hk]

/-- Joint moves keep the numbers right. -/
theorem Measured.joint (hj : Joint edges found d found' d') (hp : Placed edges found d)
    (h : Measured edges found d) : Measured edges found' d' := by
  cases hj with
  | skipRoot hk hv => exact ⟨h.looked, h.depth, trivial⟩
  | @enterRoot root roots visited known hk hv =>
      exact ⟨h.looked, h.depth, ⟨[], rfl, by simp [Looked], rfl⟩, trivial⟩
  | @leave roots name deepest stack visited known =>
      -- the name was unknown as long as it was on the stack, so no edge counted with its depth
      have hname : name ∉ known.names := fun hn =>
        ((hp.known name).1 hn).2 (List.mem_cons_self ..)
      obtain ⟨hframe, hstack⟩ := h.stack
      obtain ⟨hlooked, hdepth⟩ := hframe.left
      have hk : Keeps found known found
          (known.insert name (depthOf edges ⟨name, [], deepest⟩)) := keeps_insert hname _
      have hnew := h.keep_insert hname (hlooked.keep hk)
        (hdepth.trans (hlooked.depthFrom_keep hk).symm)
      refine ⟨fun x hx => (hnew x hx).1, fun x hx => (hnew x hx).2, ?_⟩
      cases stack with
      | nil => trivial
      | cons parent stack =>
          -- a closing edge of the parent would lead down, but the name stands above the parent
          have hnot : ¬ Closes found parent.name name := fun hc =>
            (List.nodup_cons.1 hp.nodup).1 (hp.below.2.1 name hc)
          refine ⟨(hstack.1.keep hk).told ?_ ?_, hstack.2.keep hk⟩
          · exact Or.inl (NameTable.mem_names_insert.2 (Or.inl rfl))
          · rw [across_of_not_closes hnot, NameTable.get?_insert, if_pos rfl, Option.getD_some]
  | @close roots name t rest deepest stack visited known hk hv ho =>
      -- the target is on the stack: its depth is unknown, and the edge counts with zero either way
      have ht : t ∉ known.names := fun hn => ((hp.known t).1 hn).2 ho
      have hkeep : Keeps found known
          ((pathFrom t (name :: stack.map DepthFrame.name).reverse ++ [t]) :: found) known :=
        keeps_close ht
      refine ⟨fun x hx => (h.looked x hx).keep hkeep, fun x hx => ?_, ?_, h.stack.2.keep hkeep⟩
      · rw [(h.looked x hx).depthFrom_keep hkeep]
        exact h.depth x hx
      · refine (h.stack.1.next.keep hkeep).told (Or.inr (closes_path_cons.2 (Or.inl ⟨rfl, rfl⟩))) ?_
        rw [across_of_unknown ht, NameTable.get?_eq_none_iff.2 ht, Option.getD_none]
  | @pass roots name t rest deepest stack visited known hv ho =>
      have hnot : ¬ Closes found name t := fun hc => ho (hp.below.1 t hc)
      refine ⟨h.looked, h.depth, h.stack.1.next.told ?_ (across_of_not_closes hnot), h.stack.2⟩
      exact Or.inl ((hp.known t).2 ⟨hv, ho⟩)
  | @leaf roots name t rest deepest stack visited known hk hv =>
      have ht : t ∉ known.names := fun hn => hv ((hp.known t).1 hn).1
      have hkeep : Keeps found known found (known.insert t 0) := keeps_insert ht 0
      have htargets := targets_of_notMem_keys hk
      have hlooked : Looked found (known.insert t 0) t (edges.targets t) := by
        simp [Looked, htargets]
      have hnew := h.keep_insert ht hlooked (by simp [depthFrom, htargets])
      have hzero : across found (known.insert t 0) name t = 0 := by simp [across]
      have hframe := (h.stack.1.next.keep hkeep).told
        (Or.inl (NameTable.mem_names_insert.2 (Or.inl rfl))) hzero
      rw [Nat.max_zero] at hframe
      exact ⟨fun x hx => (hnew x hx).1, fun x hx => (hnew x hx).2, hframe, h.stack.2.keep hkeep⟩
  | @enter roots name t rest deepest stack visited known hk hv ho =>
      exact ⟨h.looked, h.depth, ⟨[], rfl, by simp [Looked], rfl⟩, h.stack.1.next, h.stack.2⟩

end Moves

/-! ### The depth table -/

/-- What holds before the first joint move, and is kept by every joint move that finds the names
placed and the numbers right, holds of the cycles and the depths when both searches are over.  The
last cycle found stands first. -/
theorem exists_found_of_joint (edges : EdgeMap) {Q : List (List String) → DepthSearch → Prop}
    (hstart : Q [] (DepthSearch.start edges))
    (hjoint : ∀ {found d found' d'}, Joint edges found d found' d' → Placed edges found d →
      Measured edges found d → Q found d → Q found' d') :
    ∃ found, edges.cycles = found.reverse ∧
      Placed edges found ((DepthSearch.start edges).run edges) ∧
      Measured edges found ((DepthSearch.start edges).run edges) ∧
      Q found ((DepthSearch.start edges).run edges) := by
  obtain ⟨found, hrun, hplaced, hmeasured, hQ⟩ :=
    run_together (P := fun found d => Placed edges found d ∧ Measured edges found d ∧ Q found d)
      (fun h => h.1.roots) (fun h => h.1.names)
      (fun hj h => ⟨h.1.joint hj, h.2.1.joint hj h.1, hjoint hj h.1 h.2.1 h.2.2⟩) []
      (DepthSearch.start edges) ⟨placed_start edges, measured_start edges, hstart⟩
  have hview : (DepthSearch.start edges).view edges [] = CycleSearch.start edges := by
    simp [DepthSearch.view, DepthSearch.start, DepthSearch.names, CycleSearch.start]
  refine ⟨found, ?_, hplaced, hmeasured, hQ⟩
  rw [cycles, ← hview, hrun]
  rfl

/-- When both searches are over, the invariants hold of the depths and of the cycles. -/
theorem exists_found (edges : EdgeMap) : ∃ found, edges.cycles = found.reverse ∧
    Placed edges found ((DepthSearch.start edges).run edges) ∧
    Measured edges found ((DepthSearch.start edges).run edges) := by
  obtain ⟨found, hfound, hplaced, hmeasured, -⟩ :=
    exists_found_of_joint edges (Q := fun _ _ => True) trivial fun _ _ _ _ => trivial
  exact ⟨found, hfound, hplaced, hmeasured⟩

/-- Exactly the keys and the targets have a depth. -/
theorem mem_names_depths_iff {edges : EdgeMap} {x : String} :
    x ∈ edges.depths.names ↔ x ∈ edges.keys ∨ x ∈ edges.allTargets := by
  obtain ⟨found, -, hplaced, hmeasured⟩ := edges.exists_found
  obtain ⟨hstack, hroots⟩ := DepthSearch.step_eq_none_iff.1
    (DepthSearch.step_run edges (DepthSearch.start edges))
  -- with an empty stack, what has been entered is known
  have hknown : ∀ y, y ∈ edges.depths.names ↔
      y ∈ ((DepthSearch.start edges).run edges).visited := by
    intro y
    rw [depths, hplaced.known y, DepthSearch.names, hstack]
    simp
  have hkeys : ∀ k ∈ edges.keys, k ∈ edges.depths.names := by
    intro k hk
    rcases hplaced.keys k hk with h | h
    · rw [hroots] at h
      exact absurd h List.not_mem_nil
    · exact (hknown k).2 h
  constructor
  · intro h
    exact hplaced.visited x ((hknown x).1 h)
  · rintro (h | h)
    · exact hkeys x h
    · obtain ⟨m, hm⟩ := mem_allTargets_iff.1 h
      have hmk := hkeys m (mem_keys_of_mem_targets hm)
      rcases hmeasured.looked m hmk x hm with hx | hx
      · exact hx
      · exact (hknown x).2 (hplaced.closes m x hx).2

/-- The depths obey their equation. -/
theorem get?_depths {edges : EdgeMap} {x : String} (hx : x ∈ edges.depths.names) :
    edges.depths.get? x = some (edges.depthFrom edges.cycles edges.depths x) := by
  obtain ⟨found, hfound, -, hmeasured⟩ := edges.exists_found
  rw [hfound, depthFrom, across_reverse]
  exact hmeasured.depth x hx

/-- **The cycles determine the depths.**  Exactly the keys and targets have a depth; it is zero
where there is no target, and elsewhere one more than the greatest contribution of an edge. -/
theorem depths_determined_by_cycles (edges : EdgeMap) :
    (∀ x, x ∈ edges.depths.names ↔ x ∈ edges.keys ∨ x ∈ edges.allTargets) ∧
    (∀ x ∈ edges.depths.names, x ∉ edges.keys ∨ edges.get? x = some [] →
      edges.depths.get? x = some 0) ∧
    (∀ m ts, edges.get? m = some ts → ts ≠ [] →
      edges.depths.get? m = (ts.map (across edges.cycles edges.depths m)).max?.map (1 + ·)) := by
  refine ⟨fun x => mem_names_depths_iff, fun x hx hnone => ?_, fun m ts hm hts => ?_⟩
  · have htargets : edges.targets x = [] := by
      rcases hnone with h | h
      · exact targets_of_notMem_keys h
      · exact targets_of_get? h
    rw [get?_depths hx, depthFrom, htargets]
    rfl
  · have htargets := targets_of_get? hm
    have hkey : m ∈ edges.keys := isKey_iff.1 (by rw [isKey, hm]; rfl)
    have hempty : ts.isEmpty = false := by simpa using hts
    rw [get?_depths (mem_names_depths_iff.2 (Or.inl hkey)), depthFrom, htargets, hempty,
      max?_eq_deepestOf hts, Option.map_some, Nat.add_comm 1]
    rfl

end ModuleDeps.EdgeMap
