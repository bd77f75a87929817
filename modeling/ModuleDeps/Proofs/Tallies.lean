/-
Counting names.

Fan-in and package usage are tallies: a table in which every occurrence of a name adds one.  A tally
has an entry for each name that occurs, and the entry is the number of its occurrences; so its
values together are the length of the list.  Edges are counted in the same way: those that leave a
name are its targets, and those that enter it are its occurrences among all targets.

Main results:

* `ModuleDeps.Graph.get?_tally`, `ModuleDeps.Graph.mem_entries_tally_iff` — a tally holds the number
  of occurrences of each name;
* `ModuleDeps.Graph.sum_values_tally` — its values add up to the number of all names;
* `ModuleDeps.EdgeMap.countP_fst_pairs`, `ModuleDeps.EdgeMap.countP_snd_pairs` — the edges that
  leave and that enter a name;
* `ModuleDeps.Graph.sum_values_fanIn`, `ModuleDeps.Graph.sum_byFanOut`,
  `ModuleDeps.Graph.sum_externalUsage` — fan-in, fan-out and usage count every edge once.
-/

import Mathlib
import ModuleDeps.Graph.Basic
import ModuleDeps.Proofs.Groups

set_option relaxedAutoImplicit false
set_option autoImplicit false

namespace ModuleDeps

variable {β : Type}

namespace NameTable

/-- The names of a table, as a set. -/
def nameSet (table : NameTable β) : NameSet := ⟨table.names, table.sorted⟩

@[simp] theorem names_nameSet (table : NameTable β) : table.nameSet.names = table.names := rfl

theorem nodup_names (table : NameTable β) : table.names.Nodup :=
  table.nameSet.nodup_names

@[simp] theorem length_entries (table : NameTable β) :
    table.entries.length = table.names.length := by
  rw [names, List.length_map]

/-- A set with the names of a table has as many names as the table has entries. -/
theorem size_eq_length_entries {set : NameSet} {table : NameTable β}
    (h : ∀ x, x ∈ set.names ↔ x ∈ table.names) : set.size = table.entries.length := by
  have hnames : set.names = table.nameSet.names := NameSet.names_eq_of_mem_iff h
  rw [NameSet.size, hnames, names_nameSet, length_entries]

end NameTable

/-! ### Tallies -/

namespace Graph

/-- Counting goes on from what a table holds already. -/
theorem get?_foldl_count (names : List String) (table : NameTable Nat) (x : String) :
    (names.foldl (fun table name => table.insert name ((table.get? name).getD 0 + 1))
        table).get? x =
      if x ∈ names then some ((table.get? x).getD 0 + names.count x) else table.get? x := by
  induction names generalizing table with
  | nil => simp
  | cons name names ih =>
      rw [List.foldl_cons, ih, NameTable.get?_insert]
      by_cases heq : name = x
      · subst heq
        by_cases hmem : name ∈ names
        · simp only [hmem, if_true, Option.getD_some, List.mem_cons, or_true, List.count_cons_self,
            Option.some.injEq]
          omega
        · simp [hmem, List.count_eq_zero_of_not_mem hmem]
      · have hne : x ≠ name := fun h => heq h.symm
        simp [heq, hne, List.count_cons_of_ne heq]

/-- A tally holds the number of occurrences of each name that occurs. -/
theorem get?_tally (names : List String) (x : String) :
    (tally names).get? x = if x ∈ names then some (names.count x) else none := by
  rw [tally, get?_foldl_count]
  simp

theorem mem_names_tally_iff {names : List String} {x : String} :
    x ∈ (tally names).names ↔ x ∈ names := by
  rw [← not_iff_not, ← NameTable.get?_eq_none_iff, get?_tally]
  by_cases h : x ∈ names
  · simp [h]
  · simp [h]

theorem mem_entries_tally_iff {names : List String} {x : String} {n : Nat} :
    (x, n) ∈ (tally names).entries ↔ x ∈ names ∧ n = names.count x := by
  rw [NameTable.mem_entries_iff, get?_tally]
  by_cases hx : x ∈ names
  · simp [hx, eq_comm]
  · simp [hx]

theorem entries_tally (names : List String) :
    (tally names).entries = (tally names).names.map fun x => (x, names.count x) := by
  rw [NameTable.names, List.map_map]
  have hcount : ∀ e ∈ (tally names).entries,
      ((fun x => (x, names.count x)) ∘ Prod.fst) e = id e := by
    rintro ⟨x, n⟩ he
    rw [Function.comp_apply, (mem_entries_tally_iff.1 he).2, id]
  rw [List.map_congr_left hcount, List.map_id]

theorem values_tally (names : List String) :
    (tally names).values = (tally names).names.map fun x => names.count x := by
  rw [NameTable.values, entries_tally, List.map_map]
  rfl

/-- The values of a tally add up to the number of all names. -/
theorem sum_values_tally (names : List String) : (tally names).values.sum = names.length := by
  have hperm : (tally names).names.Perm names.dedup := by
    refine (List.perm_ext_iff_of_nodup (NameTable.nodup_names _) names.nodup_dedup).2 fun x => ?_
    rw [mem_names_tally_iff, List.mem_dedup]
  rw [values_tally, (hperm.map _).sum_eq, List.sum_map_count_dedup_eq_length]

end Graph

/-! ### Edges -/

namespace EdgeMap

theorem mem_entries_iff {edges : EdgeMap} {name : String} {ts : List String} :
    (name, ts) ∈ edges.entries ↔ edges.get? name = some ts :=
  ⟨lookupEntry_of_mem edges.nodup, mem_of_lookupEntry⟩

theorem targets_of_mem_entries {edges : EdgeMap} {e : String × List String}
    (h : e ∈ edges.entries) : edges.targets e.1 = e.2 :=
  targets_of_get? (mem_entries_iff.1 h)

/-- The edges are the pairs of a name and one of its targets. -/
theorem mem_pairs_iff {edges : EdgeMap} {x y : String} :
    (x, y) ∈ edges.pairs ↔ edges.Edge x y := by
  rw [pairs, List.mem_flatMap, Edge]
  constructor
  · rintro ⟨e, he, hmem⟩
    obtain ⟨t, ht, heq⟩ := List.mem_map.1 hmem
    obtain ⟨rfl, rfl⟩ := Prod.mk.inj heq
    rw [targets_of_mem_entries he]
    exact ht
  · intro h
    cases hx : edges.get? x with
    | none => simp [targets, hx] at h
    | some ts =>
        rw [targets_of_get? hx] at h
        exact ⟨(x, ts), mem_entries_iff.2 hx, List.mem_map.2 ⟨y, h, rfl⟩⟩

theorem map_snd_pairs (edges : EdgeMap) : edges.pairs.map Prod.snd = edges.allTargets := by
  rw [pairs, allTargets, List.map_flatMap]
  refine List.flatMap_congr fun e _ => ?_
  rw [List.map_map]
  exact List.map_id _

theorem length_allTargets (edges : EdgeMap) : edges.allTargets.length = edges.pairs.length := by
  rw [← map_snd_pairs, List.length_map]

theorem length_pairs (edges : EdgeMap) :
    edges.pairs.length = (edges.entries.map fun e => e.2.length).sum := by
  rw [pairs, List.length_flatMap]
  simp

/-- The edges that enter a name are counted by its occurrences among all targets. -/
theorem countP_snd_pairs (edges : EdgeMap) (y : String) :
    edges.pairs.countP (·.2 = y) = edges.allTargets.count y := by
  rw [← map_snd_pairs, List.count, List.countP_map]
  rfl

/-- The pairs of a name and its targets, one name after the other, of which none stands twice. -/
theorem countP_fst_flatMap {es : List (String × List String)} (h : (es.map Prod.fst).Nodup)
    (x : String) :
    (es.flatMap fun e => e.2.map (e.1, ·)).countP (·.1 = x) =
      ((lookupEntry x es).getD []).length := by
  induction es with
  | nil => simp [lookupEntry]
  | cons e es ih =>
      rw [List.map_cons, List.nodup_cons] at h
      rw [List.flatMap_cons, List.countP_append, ih h.2, lookupEntry, List.countP_map]
      by_cases he : e.1 = x
      · subst he
        rw [lookupEntry_eq_none_iff.2 h.1]
        simp [Function.comp_def]
      · simp [Function.comp_def, he]

/-- The edges that leave a name are counted by its targets. -/
theorem countP_fst_pairs (edges : EdgeMap) (x : String) :
    edges.pairs.countP (·.1 = x) = (edges.targets x).length :=
  countP_fst_flatMap edges.nodup x

end EdgeMap

/-! ### Fan-in, fan-out and usage -/

namespace Graph

/-- Fan-in counts every internal edge once. -/
theorem sum_values_fanIn (g : Graph) : g.fanIn.values.sum = g.internal.pairs.length := by
  rw [fanIn, sum_values_tally, EdgeMap.length_allTargets]

/-- Fan-out counts every internal edge once. -/
theorem sum_byFanOut (g : Graph) : (g.byFanOut.map Prod.snd).sum = g.internal.pairs.length := by
  rw [byFanOut, ((List.mergeSort_perm _ _).map _).sum_eq, List.map_map, EdgeMap.length_pairs]
  rfl

/-- Package usage counts every external edge once. -/
theorem sum_externalUsage (g : Graph) :
    (g.externalUsage.map Prod.snd).sum = g.external.pairs.length := by
  rw [externalUsage, ((List.mergeSort_perm _ _).map _).sum_eq, ← EdgeMap.length_allTargets]
  exact sum_values_tally _

theorem length_externalUsage (g : Graph) :
    g.externalUsage.length = (tally g.external.allTargets).entries.length := by
  rw [externalUsage, List.length_mergeSort]

end Graph

end ModuleDeps
