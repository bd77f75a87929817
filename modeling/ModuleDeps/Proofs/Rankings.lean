/-
Names ranked by their counts.

Package usage and fan-out are lists of names with counts, the greatest count first and by name where
counts are equal.  No two names have the same place in this order, so such a list says no more than
which names there are and what their counts are.  It does not depend on the order in which the keys
and the targets of an edge map are written, nor on the order in which a table of counts is read:
counting in a table without any order leads to the same list.

Main definitions:

* `ModuleDeps.Graph.Outranks` — the order of counted names;
* `ModuleDeps.Graph.Ranks` — a list has some names with their counts, in this order;
* `ModuleDeps.Graph.hashTally` — counting in a table without an order;
* `ModuleDeps.EdgeMap.IsReordering` — an edge map written in another order.

Main results:

* `ModuleDeps.Graph.ranks_mergeSort`, `ModuleDeps.Graph.Ranks.eq` — sorting counted names ranks
  them, and there is one ranking only;
* `ModuleDeps.Graph.usage_and_fanOut_ranked` — **package usage and fan-out are rankings**.
-/

import Mathlib
import ModuleDeps.Proofs.EnteringOrder

set_option relaxedAutoImplicit false
set_option autoImplicit false

namespace ModuleDeps

namespace Graph

/-! ### The order of counted names -/

/-- The first counted name stands before the second one: its count is greater, or the counts are
equal and it is the smaller name. -/
def Outranks (a b : String × Nat) : Prop :=
  b.2 < a.2 ∨ a.2 = b.2 ∧ a.1 < b.1

instance (a b : String × Nat) : Decidable (Outranks a b) :=
  inferInstanceAs (Decidable (_ ∨ _))

theorem countOrder_iff {a b : String × Nat} : countOrder a b = true ↔ a = b ∨ Outranks a b := by
  simp only [countOrder, Outranks, Bool.or_eq_true, Bool.and_eq_true, decide_eq_true_eq, beq_iff_eq,
    le_iff_eq_or_lt, Prod.ext_iff]
  tauto

theorem Outranks.trans {a b c : String × Nat} (hab : Outranks a b) (hbc : Outranks b c) :
    Outranks a c := by
  rcases hab with hab | ⟨hab, hab'⟩ <;> rcases hbc with hbc | ⟨hbc, hbc'⟩
  · exact .inl (hbc.trans hab)
  · exact .inl (hbc ▸ hab)
  · exact .inl (hab ▸ hbc)
  · exact .inr ⟨hab.trans hbc, hab'.trans hbc'⟩

theorem Outranks.irrefl (a : String × Nat) : ¬ Outranks a a := by
  rintro (h | ⟨-, h⟩)
  · exact Nat.lt_irrefl _ h
  · exact String.lt_irrefl _ h

/-- Counted names can be put in order in one way only. -/
theorem eq_of_pairwise_outranks {ranking ranking' : List (String × Nat)}
    (h : ranking.Pairwise Outranks) (h' : ranking'.Pairwise Outranks)
    (hperm : ranking.Perm ranking') : ranking = ranking' :=
  hperm.eq_of_pairwise (fun a _ _ _ hab hba => absurd (hab.trans hba) (Outranks.irrefl a)) h h'

/-- Of two counted names, one stands before the other, or they are equal. -/
theorem outranks_trichotomy (a b : String × Nat) : Outranks a b ∨ a = b ∨ Outranks b a := by
  rcases Nat.lt_trichotomy a.2 b.2 with h | h | h
  · exact .inr (.inr (.inl h))
  · rcases lt_trichotomy a.1 b.1 with h' | h' | h'
    · exact .inl (.inr ⟨h, h'⟩)
    · exact .inr (.inl (Prod.ext h' h))
    · exact .inr (.inr (.inr ⟨h.symm, h'⟩))
  · exact .inl (.inl h)

/-- A sorted list of counted names is in order. -/
theorem pairwise_countOrder_mergeSort (listing : List (String × Nat)) :
    (listing.mergeSort countOrder).Pairwise fun a b => countOrder a b = true := by
  refine List.pairwise_mergeSort (fun a b c hab hbc => ?_) (fun a b => ?_) listing
  · rw [countOrder_iff] at hab hbc ⊢
    rcases hab with rfl | hab
    · exact hbc
    · rcases hbc with rfl | hbc
      · exact .inr hab
      · exact .inr (hab.trans hbc)
  · rw [Bool.or_eq_true, countOrder_iff, countOrder_iff]
    rcases outranks_trichotomy a b with h | h | h
    · exact .inl (.inr h)
    · exact .inl (.inl h)
    · exact .inr (.inr h)

/-! ### Rankings -/

/-- A list ranks names by a count. -/
structure Ranks (ranking : List (String × Nat)) (names : List String) (count : String → Nat) :
    Prop where
  /-- It has just these names, with their counts. -/
  mem_iff : ∀ x n, (x, n) ∈ ranking ↔ x ∈ names ∧ n = count x
  /-- No name stands twice. -/
  nodup : (ranking.map Prod.fst).Nodup
  /-- Every entry outranks those behind it. -/
  ordered : ranking.Pairwise Outranks

/-- Counted names, of which none stands twice, are ranked by sorting them. -/
theorem ranks_mergeSort {listing : List (String × Nat)} {names : List String}
    {count : String → Nat} (hmem : ∀ x n, (x, n) ∈ listing ↔ x ∈ names ∧ n = count x)
    (hnodup : (listing.map Prod.fst).Nodup) : Ranks (listing.mergeSort countOrder) names count where
  mem_iff x n := by rw [List.mem_mergeSort, hmem]
  nodup := ((List.mergeSort_perm listing _).map Prod.fst).nodup_iff.2 hnodup
  ordered := by
    have hdistinct : (listing.mergeSort countOrder).Nodup :=
      (List.mergeSort_perm listing _).nodup_iff.2 hnodup.of_map
    refine ((pairwise_countOrder_mergeSort listing).and hdistinct).imp ?_
    rintro a b ⟨hab, hne⟩
    exact (countOrder_iff.1 hab).resolve_left hne

/-- There is one ranking only: it depends on which names there are, and on their counts. -/
theorem Ranks.eq {ranking ranking' : List (String × Nat)} {names names' : List String}
    {count count' : String → Nat} (h : Ranks ranking names count)
    (h' : Ranks ranking' names' count') (hnames : ∀ x, x ∈ names ↔ x ∈ names')
    (hcount : ∀ x ∈ names, count x = count' x) : ranking = ranking' := by
  have hperm : ranking.Perm ranking' := by
    refine (List.perm_ext_iff_of_nodup h.nodup.of_map h'.nodup.of_map).2 ?_
    rintro ⟨x, n⟩
    rw [h.mem_iff, h'.mem_iff, ← hnames]
    exact and_congr_right fun hx => by rw [hcount x hx]
  exact eq_of_pairwise_outranks h.ordered h'.ordered hperm

/-! ### Counting without an order -/

/-- How often each name occurs in a list, in a table whose entries have no order of their own. -/
def hashTally (names : List String) : Std.HashMap String Nat :=
  names.foldl (fun table name => table.insert name (table.getD name 0 + 1)) ∅

/-- Both tables count alike, from whatever they hold already. -/
theorem getElem?_foldl_hashCount {table : Std.HashMap String Nat} {table' : NameTable Nat}
    (h : ∀ x, table[x]? = table'.get? x) (names : List String) (x : String) :
    (names.foldl (fun table name => table.insert name (table.getD name 0 + 1)) table)[x]? =
      (names.foldl (fun table name => table.insert name ((table.get? name).getD 0 + 1))
        table').get? x := by
  induction names generalizing table table' with
  | nil => exact h x
  | cons name names ih =>
      refine ih fun y => ?_
      rw [Std.HashMap.getElem?_insert, NameTable.get?_insert, Std.HashMap.getD_eq_getD_getElem?, h,
        h]
      simp only [beq_iff_eq]

theorem mem_toList_hashTally_iff {names : List String} {x : String} {n : Nat} :
    (x, n) ∈ (hashTally names).toList ↔ (x, n) ∈ (tally names).entries := by
  have hempty : ∀ x, (∅ : Std.HashMap String Nat)[x]? = (NameTable.empty : NameTable Nat).get? x :=
    fun x => Std.HashMap.getElem?_empty
  rw [Std.HashMap.mem_toList_iff_getElem?_eq_some, NameTable.mem_entries_iff, hashTally, tally,
    getElem?_foldl_hashCount hempty]

theorem nodup_toList_hashTally (names : List String) :
    ((hashTally names).toList.map Prod.fst).Nodup := by
  rw [Std.HashMap.map_fst_toList_eq_keys]
  exact Std.HashMap.nodup_keys

/-- However a table of counts is read, sorting its entries ranks the names by their occurrences. -/
theorem ranks_of_perm_hashTally {names : List String} {listing : List (String × Nat)}
    (h : listing.Perm (hashTally names).toList) :
    Ranks (listing.mergeSort countOrder) names names.count := by
  refine ranks_mergeSort (fun x n => ?_) ?_
  · rw [h.mem_iff, mem_toList_hashTally_iff, mem_entries_tally_iff]
  · exact (h.map Prod.fst).nodup_iff.2 (nodup_toList_hashTally names)

end Graph

/-! ### Edge maps written in another order -/

namespace EdgeMap

/-- The other edge map has the same keys with the same targets, but may have the keys, and the
targets of each key, in another order. -/
def IsReordering (edges other : EdgeMap) : Prop :=
  other.keys.Perm edges.keys ∧ ∀ x ∈ edges.keys, (other.targets x).Perm (edges.targets x)

instance (edges other : EdgeMap) : Decidable (edges.IsReordering other) :=
  inferInstanceAs (Decidable (_ ∧ _))

theorem allTargets_eq_flatMap (edges : EdgeMap) :
    edges.allTargets = edges.keys.flatMap edges.targets := by
  rw [allTargets, keys, List.flatMap_map]
  exact List.flatMap_congr fun e he => (targets_of_mem_entries he).symm

theorem IsReordering.perm_allTargets {edges other : EdgeMap} (h : edges.IsReordering other) :
    other.allTargets.Perm edges.allTargets := by
  rw [allTargets_eq_flatMap, allTargets_eq_flatMap]
  exact h.1.flatMap fun x hx => h.2 x (h.1.mem_iff.1 hx)

/-- If no key has a target twice, a name occurs as often as there are keys that have it. -/
theorem HasDistinctTargets.count_allTargets {edges : EdgeMap} (h : edges.HasDistinctTargets)
    (x : String) :
    edges.allTargets.count x = (edges.keys.filter fun key => x ∈ edges.targets key).length := by
  rw [allTargets_eq_flatMap, List.count_flatMap, ← List.countP_eq_length_filter]
  induction edges.keys with
  | nil => rfl
  | cons key keys ih =>
      rw [List.map_cons, List.sum_cons, ih, List.countP_cons, Function.comp_apply,
        (h.nodup_targets key).count, Nat.add_comm]
      simp

end EdgeMap

/-! ### Package usage and fan-out -/

namespace Graph

theorem ranks_externalUsage (g : Graph) :
    Ranks g.externalUsage g.external.allTargets g.external.allTargets.count :=
  ranks_mergeSort (fun _ _ => mem_entries_tally_iff) (NameTable.nodup_names _)

theorem ranks_byFanOut (g : Graph) :
    Ranks g.byFanOut g.internal.keys fun x => (g.internal.targets x).length := by
  refine ranks_mergeSort (fun x n => ?_) ?_
  · constructor
    · intro h
      obtain ⟨e, he, heq⟩ := List.mem_map.1 h
      obtain ⟨rfl, rfl⟩ := Prod.mk.inj heq
      exact ⟨List.mem_map_of_mem he, by rw [EdgeMap.targets_of_mem_entries he]⟩
    · rintro ⟨hx, rfl⟩
      obtain ⟨e, he, rfl⟩ := List.mem_map.1 hx
      exact List.mem_map.2 ⟨e, he, by rw [EdgeMap.targets_of_mem_entries he]⟩
  · rw [List.map_map]
    exact g.internal.nodup

/-- **Package usage and fan-out are rankings.**  Package usage has every target of an external edge
once, with the number of its occurrences, which is the number of modules that use it if no module
has a target twice; the greatest number comes first, then the smaller name, and together the numbers
count every external edge.  Fan-out has every key of the internal edges once, with the number of its
targets, in the same order, and counts every internal edge.  It does not matter how the table of
counts is read, nor in which order keys and targets are written. -/
theorem usage_and_fanOut_ranked (g : Graph) :
    Ranks g.externalUsage g.external.allTargets g.external.allTargets.count ∧
    (g.external.HasDistinctTargets → ∀ x n, (x, n) ∈ g.externalUsage →
      n = (g.external.keys.filter fun key => x ∈ g.external.targets key).length) ∧
    (g.externalUsage.map Prod.snd).sum = g.external.pairs.length ∧
    (∀ listing : List (String × Nat), listing.Perm (hashTally g.external.allTargets).toList →
      listing.mergeSort countOrder = g.externalUsage) ∧
    (∀ g' : Graph, g.external.IsReordering g'.external → g'.externalUsage = g.externalUsage) ∧
    Ranks g.byFanOut g.internal.keys (fun x => (g.internal.targets x).length) ∧
    (g.byFanOut.map Prod.snd).sum = g.internal.pairs.length ∧
    ∀ g' : Graph, g.internal.IsReordering g'.internal → g'.byFanOut = g.byFanOut := by
  refine ⟨g.ranks_externalUsage, fun hdistinct x n hx => ?_, g.sum_externalUsage,
    fun listing hperm => ?_, fun g' h => ?_, g.ranks_byFanOut, g.sum_byFanOut, fun g' h => ?_⟩
  · rw [((g.ranks_externalUsage.mem_iff x n).1 hx).2, hdistinct.count_allTargets]
  · exact (ranks_of_perm_hashTally hperm).eq g.ranks_externalUsage (fun _ => .rfl) (fun _ _ => rfl)
  · exact g'.ranks_externalUsage.eq g.ranks_externalUsage (fun _ => h.perm_allTargets.mem_iff)
      (fun x _ => h.perm_allTargets.count_eq x)
  · exact g'.ranks_byFanOut.eq g.ranks_byFanOut (fun _ => h.1.mem_iff)
      (fun x hx => (h.2 x (h.1.mem_iff.1 hx)).length_eq)

/-- Two packages are used once, and two modules have one target each; the same graph is written in
another order, and the table of counts is read backwards. -/
theorem usage_and_fanOut_ranked_with_ties :
    let g : Graph :=
      { Graph.empty with
        internal := .ofList [("a", ["b", "c"]), ("c", ["b"]), ("b", ["c"])]
        external := .ofList [("a", ["requests"]), ("b", ["numpy", "requests"]), ("c", ["flask"])] }
    let g' : Graph :=
      { Graph.empty with
        internal := .ofList [("b", ["c"]), ("a", ["c", "b"]), ("c", ["b"])]
        external := .ofList [("c", ["flask"]), ("b", ["requests", "numpy"]), ("a", ["requests"])] }
    let listing := (hashTally g.external.allTargets).toList.reverse
    g.externalUsage = [("requests", 2), ("flask", 1), ("numpy", 1)] ∧
    2 = (g.external.keys.filter fun key => "requests" ∈ g.external.targets key).length ∧
    listing.mergeSort countOrder = g.externalUsage ∧ g'.externalUsage = g.externalUsage ∧
    g.byFanOut = [("a", 2), ("b", 1), ("c", 1)] ∧ g'.byFanOut = g.byFanOut := by
  intro g g' listing
  obtain ⟨hranks, hmodules, -, hlisting, hexternal, hranks', -, hinternal⟩ :=
    usage_and_fanOut_ranked g
  -- sorting is by well-founded recursion, so the lists are compared before they are sorted
  have husage : g.externalUsage = [("requests", 2), ("flask", 1), ("numpy", 1)] :=
    eq_of_pairwise_outranks hranks.ordered (by decide +kernel)
      ((List.mergeSort_perm _ _).trans (by decide +kernel))
  have hfanOut : g.byFanOut = [("a", 2), ("b", 1), ("c", 1)] :=
    eq_of_pairwise_outranks hranks'.ordered (by decide +kernel)
      ((List.mergeSort_perm _ _).trans (by decide +kernel))
  have hmem : ("requests", 2) ∈ g.externalUsage := husage ▸ List.mem_cons_self
  exact ⟨husage, hmodules (by decide +kernel) "requests" 2 hmem,
    hlisting listing (List.reverse_perm _), hexternal g' (by decide +kernel), hfanOut,
    hinternal g' (by decide +kernel)⟩

end Graph

end ModuleDeps
