/-
Bounds on depths.

The names of a descending walk are distinct and have targets, all but the last one.  So no depth is
greater than the number of keys with targets, and neither is the greatest depth among the figures of
a graph.  The same holds of every number that the search computes on its way: a name on the stack is
not known yet, so that a walk behind the number that the search holds for it leaves room for one
more.

Main definitions:

* `ModuleDeps.EdgeMap.sources` — the keys that have targets.

Main results:

* `ModuleDeps.EdgeMap.Descends.le_sources` — a bound on depths;
* `ModuleDeps.EdgeMap.deepest_lt_of_reached` — a bound on the numbers of every state;
* `ModuleDeps.EdgeMap.depths_follow_walks` — **depths are lengths of descending walks**.
-/

import ModuleDeps.Text.Count
import ModuleDeps.Proofs.DescendingWalks
import ModuleDeps.Proofs.Figures

set_option relaxedAutoImplicit false
set_option autoImplicit false

namespace ModuleDeps

namespace EdgeMap

open DepthSearch (Reached)

/-! ### Keys with targets -/

/-- The keys that have targets. -/
def sources (edges : EdgeMap) : List String :=
  edges.keys.filter fun key => !(edges.targets key).isEmpty

theorem mem_sources_iff {edges : EdgeMap} {x : String} :
    x ∈ edges.sources ↔ x ∈ edges.keys ∧ edges.targets x ≠ [] := by
  simp [sources]

/-- Only keys have targets. -/
theorem mem_sources_of_targets {edges : EdgeMap} {x : String} (h : edges.targets x ≠ []) :
    x ∈ edges.sources := by
  obtain ⟨t, ht⟩ := List.exists_mem_of_ne_nil _ h
  exact mem_sources_iff.2 ⟨mem_keys_of_mem_targets ht, h⟩

/-- Distinct names with targets are at most as many as there are such keys. -/
theorem length_le_sources {edges : EdgeMap} {names : List String} (hnodup : names.Nodup)
    (h : ∀ x ∈ names, edges.targets x ≠ []) : names.length ≤ edges.sources.length :=
  (List.subperm_of_subset hnodup fun x hx => mem_sources_of_targets (h x hx)).length_le

/-! ### Bounds -/

namespace Descends

variable {edges : EdgeMap} {known : NameTable Nat}

/-- No depth exceeds the number of keys with targets. -/
theorem le_sources (h : Descends edges known) {m : String} {d : Nat}
    (hm : known.get? m = some d) : d ≤ edges.sources.length := by
  obtain ⟨names, -, hlength, hnodup, hnames⟩ := h.exists_walk d m hm
  have hle := length_le_sources hnodup fun x hx => (hnames x hx).1
  rw [List.length_take, List.length_cons] at hle
  omega

/-- A name with targets that the table does not know leaves room for one more. -/
theorem lt_sources (h : Descends edges known) {m x : String} {d : Nat}
    (hm : known.get? m = some d) (hx : x ∉ known.names) (htargets : edges.targets x ≠ []) :
    d < edges.sources.length := by
  obtain ⟨names, -, hlength, hnodup, hnames⟩ := h.exists_walk d m hm
  have hnotMem : x ∉ (m :: names).take d := by
    intro hmem
    obtain ⟨-, k, -, hk⟩ := hnames x hmem
    rw [NameTable.get?_eq_none_iff.2 hx] at hk
    cases hk
  have hle := length_le_sources (List.nodup_cons.2 ⟨hnotMem, hnodup⟩)
    (List.forall_mem_cons.2 ⟨htargets, fun y hy => (hnames y hy).1⟩)
  rw [List.length_cons, List.length_take, List.length_cons] at hle
  omega

end Descends

/-- Whenever the search holds a name with targets, the number that it has for the name is smaller
than the number of keys with targets. -/
theorem deepest_lt_of_reached {edges : EdgeMap} {s : DepthSearch} (h : Reached edges s)
    {frame : DepthFrame} (hframe : frame ∈ s.stack) (htargets : edges.targets frame.name ≠ []) :
    frame.deepest < edges.sources.length := by
  have hfounded := founded_of_reached h
  have hunknown : frame.name ∉ s.known.names :=
    hfounded.unknown _ (List.mem_map.2 ⟨frame, hframe, rfl⟩)
  rcases hfounded.frames frame hframe with hzero | ⟨t, -, ht⟩
  · rw [hzero]
    exact List.length_pos_of_mem (mem_sources_of_targets htargets)
  · exact hfounded.descends.lt_sources ht hunknown htargets

end EdgeMap

/-- The greatest depth of a graph is at most the number of modules that import one. -/
theorem Statistics.maxDepth_compute_le (records : List ImportRecord) (g : Graph) :
    (ofGraph records g.compute).maxDepth ≤ g.internal.sources.length := by
  rcases foldl_max_eq_or_mem g.internal.depths.values 0 with hzero | hmem
  · exact hzero.trans_le (Nat.zero_le _)
  · obtain ⟨⟨x, d⟩, he, hd⟩ := List.mem_map.1 hmem
    have hle := g.internal.descends_depths.le_sources (NameTable.mem_entries_iff.1 he)
    exact hd.symm.trans_le hle

namespace EdgeMap

open DepthSearch (Reached)

/-- **Depths are lengths of descending walks**, on any edge map, cyclic or not.  A depth is at least
one exactly for the keys with targets.  From a name of depth `d` a walk of `d` edges leads through
names that are distinct, all but the last one, and these are keys with targets.  So every depth, the
greatest depth among the figures of a graph, and one more than any number that the search holds for
a name with targets are at most the number of keys with targets.  The last of these is what the
search computes; it stays below the limit of counts if the number of keys does. -/
theorem depths_follow_walks (edges : EdgeMap) :
    (∀ m d, edges.depths.get? m = some d →
      (1 ≤ d ↔ m ∈ edges.keys ∧ edges.targets m ≠ []) ∧
      (∃ names, edges.IsWalkFrom m names ∧ names.length = d ∧ ((m :: names).take d).Nodup ∧
        ∀ x ∈ (m :: names).take d, x ∈ edges.keys ∧ edges.targets x ≠ []) ∧
      d ≤ edges.sources.length) ∧
    (∀ (records : List ImportRecord) (g : Graph), g.internal = edges →
      (Statistics.ofGraph records g.compute).maxDepth ≤ edges.sources.length) ∧
    ∀ s, Reached edges s → ∀ frame ∈ s.stack, edges.targets frame.name ≠ [] →
      frame.deepest + 1 ≤ edges.sources.length ∧
      (edges.keys.length < Text.countLimit → frame.deepest + 1 < Text.countLimit) := by
  refine ⟨fun m d hm => ⟨?_, ?_, edges.descends_depths.le_sources hm⟩, ?_, ?_⟩
  · rw [← mem_sources_iff, Nat.one_le_iff_ne_zero, ne_eq, edges.descends_depths.zero m d hm]
    exact ⟨mem_sources_of_targets, fun h => (mem_sources_iff.1 h).2⟩
  · obtain ⟨names, hwalk, hlength, hnodup, hnames⟩ := edges.descends_depths.exists_walk d m hm
    exact ⟨names, hwalk, hlength, hnodup, fun x hx =>
      mem_sources_iff.1 (mem_sources_of_targets (hnames x hx).1)⟩
  · rintro records g rfl
    exact Statistics.maxDepth_compute_le records g
  · intro s hs frame hframe htargets
    have hlt : frame.deepest + 1 ≤ edges.sources.length :=
      deepest_lt_of_reached hs hframe htargets
    have hkeys : edges.sources.length ≤ edges.keys.length := List.length_filter_le _ _
    exact ⟨hlt, fun hcount => Nat.lt_of_le_of_lt (hlt.trans hkeys) hcount⟩

/-- In a ring of three names with an edge across, the name at which the search begins is as deep as
the ring is long. -/
theorem depths_follow_walks_around_ring :
    let edges : EdgeMap := .ofList [("a", ["b"]), ("b", ["c", "a"]), ("c", ["a"])]
    let s : DepthSearch := ⟨["b", "c"], [⟨"a", ["b"], 0⟩], ["a"], .empty⟩
    edges.depths.get? "a" = some 3 ∧
      (∃ names, edges.IsWalkFrom "a" names ∧ names.length = 3 ∧ (("a" :: names).take 3).Nodup ∧
        ∀ x ∈ ("a" :: names).take 3, x ∈ edges.keys ∧ edges.targets x ≠ []) ∧
      edges.sources.length = 3 ∧
      Reached edges s ∧ ∀ frame ∈ s.stack, frame.deepest + 1 < Text.countLimit := by
  intro edges s
  obtain ⟨hdepths, -, hstates⟩ := depths_follow_walks edges
  have hthree : edges.depths.get? "a" = some 3 := by decide +kernel
  have hs : Reached edges s := .single (by decide +kernel)
  have htargets : ∀ frame ∈ s.stack, edges.targets frame.name ≠ [] := by decide +kernel
  exact ⟨hthree, (hdepths "a" 3 hthree).2.1, by decide +kernel, hs, fun frame hframe =>
    (hstates s hs frame hframe (htargets frame hframe)).2 (by decide +kernel)⟩

end EdgeMap

end ModuleDeps
