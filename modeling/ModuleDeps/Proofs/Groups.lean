/-
Groups are the names that reach each other.

The names reached from a name are explored with a list of names still to be looked at.  What is
explored is sound, holds all of the list, and is closed under edges, so it is just what can be
reached.  A group is written in increasing order and kept only at its first name; since the groups
of two names that reach each other have the same members, they are the same list, and the one kept
stands for all of them.

Main results:

* `ModuleDeps.EdgeMap.mem_reached_iff` — what can be reached from a name;
* `ModuleDeps.EdgeMap.mem_groupOf_iff` — the members of the group of a name;
* `ModuleDeps.EdgeMap.exists_group_of_reaches_self` — every name on a closed walk is in a group with
  all names that reach it and are reached by it;
* `ModuleDeps.EdgeMap.exists_mem_iff_of_mem_groups` — every group is of this form;
* `ModuleDeps.EdgeMap.eq_of_mem_groups` — groups with a common name are equal.
-/

import ModuleDeps.Edges.Components
import ModuleDeps.Proofs.Walks

set_option relaxedAutoImplicit false
set_option autoImplicit false

namespace ModuleDeps

/-- A set holds no name twice. -/
theorem NameSet.nodup_names (s : NameSet) : s.names.Nodup := by
  refine List.Pairwise.imp ?_ s.sorted
  rintro a b hlt rfl
  exact String.lt_irrefl _ hlt

/-- Sets of names with the same members are written in the same way. -/
theorem NameSet.names_eq_of_mem_iff {s t : NameSet} (h : ∀ x, x ∈ s.names ↔ x ∈ t.names) :
    s.names = t.names := by
  have hperm := (List.perm_ext_iff_of_nodup s.nodup_names t.nodup_names).2 h
  refine hperm.eq_of_pairwise (fun a b _ _ hab hba => ?_) s.sorted t.sorted
  exact absurd (String.lt_trans hab hba) (String.lt_irrefl a)

namespace EdgeMap

/-! ### What can be reached -/

/-- Nothing is explored that cannot be reached. -/
theorem explore_sound {edges : EdgeMap} {P : String → Prop}
    (hP : ∀ {x y}, P x → edges.Edge x y → P y) {todo seen : List String}
    (htodo : ∀ x ∈ todo, P x) (hseen : ∀ x ∈ seen, P x) :
    ∀ x ∈ edges.explore todo seen, P x := by
  fun_induction edges.explore todo seen with
  | case1 seen => exact hseen
  | case2 seen name rest h ih =>
      exact ih (fun x hx => htodo x (List.mem_cons_of_mem _ hx)) hseen
  | case3 seen name rest h _ ih =>
      have hname := htodo name List.mem_cons_self
      refine ih (fun x hx => ?_) (fun x hx => ?_)
      · rcases List.mem_append.1 hx with hx | hx
        · exact hP hname hx
        · exact htodo x (List.mem_cons_of_mem _ hx)
      · rcases List.mem_cons.1 hx with rfl | hx
        · exact hname
        · exact hseen x hx

/-- What has been seen and what is to be looked at is explored. -/
theorem mem_explore {edges : EdgeMap} {todo seen : List String} :
    ∀ x, x ∈ todo ∨ x ∈ seen → x ∈ edges.explore todo seen := by
  fun_induction edges.explore todo seen with
  | case1 seen => simp
  | case2 seen name rest h ih =>
      rintro x (hx | hx)
      · rcases List.mem_cons.1 hx with rfl | hx
        · exact ih x (Or.inr h)
        · exact ih x (Or.inl hx)
      · exact ih x (Or.inr hx)
  | case3 seen name rest h _ ih =>
      rintro x (hx | hx)
      · rcases List.mem_cons.1 hx with rfl | hx
        · exact ih x (Or.inr List.mem_cons_self)
        · exact ih x (Or.inl (List.mem_append_right _ hx))
      · exact ih x (Or.inr (List.mem_cons_of_mem _ hx))

/-- What is explored is closed under edges, if the targets of what has been seen are seen or to be
looked at. -/
theorem explore_closed {edges : EdgeMap} {todo seen : List String}
    (h : ∀ x ∈ seen, ∀ y, edges.Edge x y → y ∈ todo ∨ y ∈ seen) :
    ∀ x ∈ edges.explore todo seen, ∀ y, edges.Edge x y → y ∈ edges.explore todo seen := by
  fun_induction edges.explore todo seen with
  | case1 seen =>
      intro x hx y hxy
      simpa using h x hx y hxy
  | case2 seen name rest hname ih =>
      refine ih fun x hx y hxy => ?_
      rcases h x hx y hxy with hy | hy
      · rcases List.mem_cons.1 hy with rfl | hy
        · exact Or.inr hname
        · exact Or.inl hy
      · exact Or.inr hy
  | case3 seen name rest hname _ ih =>
      refine ih fun x hx y hxy => ?_
      rcases List.mem_cons.1 hx with rfl | hx
      · exact Or.inl (List.mem_append_left _ hxy)
      · rcases h x hx y hxy with hy | hy
        · rcases List.mem_cons.1 hy with rfl | hy
          · exact Or.inr List.mem_cons_self
          · exact Or.inl (List.mem_append_right _ hy)
        · exact Or.inr (List.mem_cons_of_mem _ hy)

/-- What can be reached from a name. -/
theorem mem_reached_iff {edges : EdgeMap} {x y : String} :
    y ∈ edges.reached x ↔ edges.Reaches x y := by
  rw [reached]
  constructor
  · exact explore_sound (P := edges.Reaches x) (fun hxu huv => .tail hxu huv)
      (fun t ht => .single ht) (by simp) y
  · intro h
    induction h with
    | single hxy => exact mem_explore _ (Or.inl hxy)
    | tail _ huv ih => exact explore_closed (by simp) _ ih _ huv

/-! ### Groups -/

/-- A name with an edge occurs in the edge map. -/
theorem mem_nodes_of_reaches {edges : EdgeMap} {x y : String} (h : edges.Reaches x y) :
    x ∈ edges.nodes := by
  rw [nodes, NameSet.mem_names_ofList]
  obtain ⟨t, hxt, -⟩ := Relation.TransGen.head'_iff.1 h
  exact List.mem_append_left _ (mem_keys_of_mem_targets hxt)

/-- The table holds what each name reaches. -/
theorem get?_reachTable (edges : EdgeMap) (names : List String) (x : String) :
    (edges.reachTable names).get? x = if x ∈ names then some (edges.reached x) else none := by
  have hfold : ∀ (names : List String) (table : NameTable (List String)),
      (names.foldl (fun table name => table.insert name (edges.reached name)) table).get? x =
        if x ∈ names then some (edges.reached x) else table.get? x := by
    intro names
    induction names with
    | nil => simp
    | cons name names ih =>
        intro table
        rw [List.foldl_cons, ih, NameTable.get?_insert]
        by_cases hx : x ∈ names
        · simp [hx]
        · by_cases hname : name = x
          · simp [hname]
          · have : x ≠ name := fun h => hname h.symm
            simp [hx, hname, this]
  rw [reachTable, hfold, NameTable.get?_empty]

/-- The members of the group of a name: those that it reaches and that reach it. -/
theorem mem_groupOf_iff {edges : EdgeMap} {x y : String} :
    y ∈ groupOf (edges.reachTable edges.nodes) x ↔ edges.Reaches x y ∧ edges.Reaches y x := by
  have hread : ∀ u v, v ∈ reachedIn (edges.reachTable edges.nodes) u ↔ edges.Reaches u v := by
    intro u v
    rw [reachedIn, get?_reachTable]
    split
    · rw [Option.getD_some, mem_reached_iff]
    · next hu =>
      rw [Option.getD_none]
      exact ⟨fun h => absurd h List.not_mem_nil, fun h => absurd (mem_nodes_of_reaches h) hu⟩
  rw [groupOf, NameSet.mem_names_ofList, List.mem_filter, hread, List.contains_iff_mem, hread]

/-- Names that reach each other have the same group. -/
theorem groupOf_eq {edges : EdgeMap} {x y : String} (hxy : edges.Reaches x y)
    (hyx : edges.Reaches y x) :
    groupOf (edges.reachTable edges.nodes) x = groupOf (edges.reachTable edges.nodes) y := by
  refine NameSet.names_eq_of_mem_iff fun z => ?_
  have hx : z ∈ groupOf (edges.reachTable edges.nodes) x ↔ _ := mem_groupOf_iff
  have hy : z ∈ groupOf (edges.reachTable edges.nodes) y ↔ _ := mem_groupOf_iff
  rw [groupOf] at hx hy
  rw [hx, hy]
  constructor
  · rintro ⟨hxz, hzx⟩
    exact ⟨hyx.trans hxz, hzx.trans hxy⟩
  · rintro ⟨hyz, hzy⟩
    exact ⟨hxy.trans hyz, hzy.trans hyx⟩

/-- Every name on a closed walk is in a group with all names that reach it and are reached by it. -/
theorem exists_group_of_reaches_self {edges : EdgeMap} {x : String} (h : edges.Reaches x x) :
    ∃ group ∈ edges.groups, ∀ y, y ∈ group ↔ edges.Reaches x y ∧ edges.Reaches y x := by
  -- the group is kept at its first name, whose group is the same
  have hx : x ∈ groupOf (edges.reachTable edges.nodes) x := mem_groupOf_iff.2 ⟨h, h⟩
  obtain ⟨first, others, hgroup⟩ := List.exists_cons_of_ne_nil (List.ne_nil_of_mem hx)
  obtain ⟨hxf, hfx⟩ := mem_groupOf_iff.1 (hgroup ▸ List.mem_cons_self : first ∈ groupOf _ x)
  have hsame := groupOf_eq hxf hfx
  refine ⟨groupOf (edges.reachTable edges.nodes) x, ?_, fun y => mem_groupOf_iff⟩
  rw [groups]
  refine List.mem_filterMap.2 ⟨first, mem_nodes_of_reaches hfx, ?_⟩
  rw [← hsame, hgroup]
  simp

/-- A group is that of any of its names, and it has at least one. -/
theorem exists_mem_groupOf_eq {edges : EdgeMap} {group : List String} (h : group ∈ edges.groups) :
    ∃ x ∈ group, groupOf (edges.reachTable edges.nodes) x = group := by
  rw [groups] at h
  obtain ⟨x, -, hx⟩ := List.mem_filterMap.1 h
  simp only at hx
  split at hx
  · next hhead =>
    rw [Option.some.injEq] at hx
    refine ⟨x, ?_, hx⟩
    rw [← hx]
    exact List.mem_of_head? hhead
  · simp at hx

/-- The members of a group are the names that reach one of its names and are reached by it; in
particular this name lies on a closed walk. -/
theorem exists_mem_iff_of_mem_groups {edges : EdgeMap} {group : List String}
    (h : group ∈ edges.groups) :
    ∃ x, edges.Reaches x x ∧ ∀ y, y ∈ group ↔ edges.Reaches x y ∧ edges.Reaches y x := by
  obtain ⟨x, hx, rfl⟩ := exists_mem_groupOf_eq h
  exact ⟨x, (mem_groupOf_iff.1 hx).1, fun y => mem_groupOf_iff⟩

/-- Groups with a common name are equal. -/
theorem eq_of_mem_groups {edges : EdgeMap} {group group' : List String}
    (h : group ∈ edges.groups) (h' : group' ∈ edges.groups) {z : String} (hz : z ∈ group)
    (hz' : z ∈ group') : group = group' := by
  obtain ⟨x, -, rfl⟩ := exists_mem_groupOf_eq h
  obtain ⟨x', -, rfl⟩ := exists_mem_groupOf_eq h'
  obtain ⟨hxz, hzx⟩ := mem_groupOf_iff.1 hz
  obtain ⟨hxz', hzx'⟩ := mem_groupOf_iff.1 hz'
  exact groupOf_eq (hxz.trans hzx') (hxz'.trans hzx)

end EdgeMap

end ModuleDeps
