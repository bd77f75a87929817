/-
A graph survives its text.

A graph is written as an object of seven members: three edge maps, whose keys keep their order, a
list of cycles, a table of depths and two sets of names.  Each part is read back from what is
written for it: an edge map and a table have no key twice, so that filling an empty one with their
entries gives them again, and a set has one form only.

The other way round, a text may describe a graph in many ways: with repeated keys, with further
members, as an array.  The graph that is read has depths that fit in a word, and so it is a graph
whose own text is read back.

Main definitions:

* `ModuleDeps.Graph.HasWords` — the depths of a graph fit in a word.

Main results:

* `ModuleDeps.EdgeMap.ofList_entries`, `ModuleDeps.NameTable.ofList_entries`,
  `ModuleDeps.NameSet.ofList_names` — filling an empty map, table or set again;
* `ModuleDeps.Graph.ofText?_of_isText` — every text of a graph's value is read as the graph;
* `ModuleDeps.Graph.hasWords_of_ofText?` — a graph that was read has depths that fit in a word;
* `ModuleDeps.Graph.ofText?_toText` — **a graph survives its text**.
-/

import ModuleDeps.Proofs.Groups
import ModuleDeps.Proofs.JsonCounts
import ModuleDeps.Proofs.JsonReading

set_option relaxedAutoImplicit false
set_option autoImplicit false

namespace ModuleDeps

/-! ### Filling an empty container again -/

theorem setTargets_of_notMem {key : String} {ts : List String}
    {es : List (String × List String)} (h : key ∉ es.map Prod.fst) :
    setTargets key ts es = es ++ [(key, ts)] := by
  induction es with
  | nil => rfl
  | cons e es ih =>
      rw [List.map_cons, List.mem_cons, not_or] at h
      rw [setTargets, if_neg (Ne.symm h.1), ih h.2, List.cons_append]

/-- New keys stand behind the others, in order. -/
theorem EdgeMap.entries_foldl_set (es : List (String × List String)) (edges : EdgeMap)
    (h : ((edges.entries ++ es).map Prod.fst).Nodup) :
    (es.foldl (fun edges e => edges.set e.1 e.2) edges).entries = edges.entries ++ es := by
  induction es generalizing edges with
  | nil => rw [List.foldl_nil, List.append_nil]
  | cons e es ih =>
      rw [List.map_append, List.map_cons] at h
      have hnew : e.1 ∉ edges.entries.map Prod.fst := fun hmem =>
        (List.nodup_append.1 h).2.2 _ hmem _ List.mem_cons_self rfl
      have hset : (edges.set e.1 e.2).entries = edges.entries ++ [e] := setTargets_of_notMem hnew
      rw [List.foldl_cons, ih, hset, List.append_assoc, List.singleton_append]
      rw [hset, List.append_assoc, List.singleton_append, List.map_append]
      exact h

@[simp] theorem EdgeMap.ofList_entries (edges : EdgeMap) : ofList edges.entries = edges := by
  have h := entries_foldl_set edges.entries empty edges.nodup
  exact (EdgeMap.mk.injEq ..).mpr h

section Table

variable {β : Type}

theorem insertEntry_of_forall_lt {name : String} {value : β} {es : List (String × β)}
    (h : ∀ x ∈ es.map Prod.fst, x < name) : insertEntry name value es = es ++ [(name, value)] := by
  induction es with
  | nil => rfl
  | cons e es ih =>
      rw [List.map_cons, List.forall_mem_cons] at h
      have hnot : ¬name < e.1 := fun hlt => String.lt_irrefl _ (String.lt_trans hlt h.1)
      rw [insertEntry, if_neg hnot, if_pos h.1, ih h.2, List.cons_append]

/-- Entries with greater names stand behind the others. -/
theorem NameTable.entries_foldl_insert (es : List (String × β)) (table : NameTable β)
    (h : ((table.entries ++ es).map Prod.fst).Pairwise (· < ·)) :
    (es.foldl (fun table e => table.insert e.1 e.2) table).entries = table.entries ++ es := by
  induction es generalizing table with
  | nil => rw [List.foldl_nil, List.append_nil]
  | cons e es ih =>
      rw [List.map_append, List.map_cons] at h
      have hlt : ∀ x ∈ table.entries.map Prod.fst, x < e.1 := fun x hx =>
        (List.pairwise_append.1 h).2.2 x hx _ List.mem_cons_self
      have hinsert : (table.insert e.1 e.2).entries = table.entries ++ [e] :=
        insertEntry_of_forall_lt hlt
      rw [List.foldl_cons, ih, hinsert, List.append_assoc, List.singleton_append]
      rw [hinsert, List.append_assoc, List.singleton_append, List.map_append]
      exact h

@[simp] theorem NameTable.ofList_entries (table : NameTable β) : ofList table.entries = table := by
  have h := entries_foldl_insert table.entries empty table.sorted
  exact (NameTable.mk.injEq ..).mpr h

theorem mem_of_mem_insertEntry {name : String} {value : β} {es : List (String × β)}
    {e : String × β} (h : e ∈ insertEntry name value es) : e = (name, value) ∨ e ∈ es := by
  induction es with
  | nil => exact Or.inl (List.mem_singleton.1 h)
  | cons e' es ih =>
      rw [insertEntry] at h
      split at h
      · exact List.mem_cons.1 h
      · split at h
        · rcases List.mem_cons.1 h with rfl | h
          · exact Or.inr List.mem_cons_self
          · exact (ih h).imp_right (List.mem_cons_of_mem e')
        · exact (List.mem_cons.1 h).imp_right (List.mem_cons_of_mem e')

/-- Nothing gets into a table that is not put there. -/
theorem NameTable.mem_of_mem_foldl_insert {es : List (String × β)} {table : NameTable β}
    {e : String × β} (h : e ∈ (es.foldl (fun table e => table.insert e.1 e.2) table).entries) :
    e ∈ es ∨ e ∈ table.entries := by
  induction es generalizing table with
  | nil => exact Or.inr h
  | cons e' es ih =>
      rcases ih h with hes | htable
      · exact Or.inl (List.mem_cons_of_mem e' hes)
      · rcases mem_of_mem_insertEntry htable with rfl | htable
        · exact Or.inl List.mem_cons_self
        · exact Or.inr htable

theorem NameTable.mem_of_mem_ofList {es : List (String × β)} {e : String × β}
    (h : e ∈ (ofList es).entries) : e ∈ es :=
  (mem_of_mem_foldl_insert h).resolve_right List.not_mem_nil

end Table

@[simp] theorem NameSet.ofList_names (set : NameSet) : ofList set.names = set :=
  (NameSet.mk.injEq ..).mpr (names_eq_of_mem_iff fun _ => mem_names_ofList)

/-! ### The parts of a graph -/

open Json (Fits IsText toWord?_ofNat)

theorem EdgeMap.ofJson?_toJson (edges : EdgeMap) : ofJson? edges.toJson = some edges := by
  have hentries : (edges.entries.map fun e => (e.1, Json.ofStrings e.2)).mapM
      (fun m => do return (m.1, ← m.2.toStrings?)) = some edges.entries := by
    refine Json.mapM_map_of_forall fun e _ => ?_
    rw [Json.ofStrings, Json.toStrings?_strings]
    rfl
  rw [toJson, ofJson?, hentries, Option.bind_eq_bind, Option.bind_some, ofList_entries]
  rfl

theorem EdgeMap.fits_toJson (edges : EdgeMap) (levels : Nat) : Fits (levels + 2) edges.toJson := by
  intro m hm
  obtain ⟨e, -, rfl⟩ := List.mem_map.1 hm
  exact Json.fits_strings e.2 levels

theorem NameTable.ofJson?_toJson {table : NameTable Nat}
    (h : ∀ e ∈ table.entries, e.2 < Text.countLimit) : ofJson? table.toJson = some table := by
  have hentries : (table.entries.map fun e => (e.1, Json.ofNat e.2)).mapM
      (fun m => do return (m.1, ← m.2.toWord?)) = some table.entries := by
    refine Json.mapM_map_of_forall fun e he => ?_
    rw [toWord?_ofNat (h e he)]
    rfl
  rw [toJson, ofJson?, hentries, Option.bind_eq_bind, Option.bind_some, ofList_entries]
  rfl

theorem NameTable.fits_toJson {table : NameTable Nat}
    (h : ∀ e ∈ table.entries, e.2 < Text.countLimit) (levels : Nat) :
    Fits (levels + 1) table.toJson := by
  intro m hm
  obtain ⟨e, he, rfl⟩ := List.mem_map.1 hm
  exact Json.fits_ofNat (h e he) levels

/-- What a table is read from has numbers that fit in a word, and so has the table. -/
theorem NameTable.lt_of_ofJson? {v : Json} {table : NameTable Nat} (h : ofJson? v = some table) :
    ∀ e ∈ table.entries, e.2 < Text.countLimit := by
  cases v with
  | object members =>
      rw [ofJson?, Option.bind_eq_bind, Option.bind_eq_some_iff] at h
      obtain ⟨es, hes, htable⟩ := h
      cases htable
      intro e he
      obtain ⟨m, -, hm⟩ := Json.exists_of_mem_mapM hes (mem_of_mem_ofList he)
      obtain ⟨n, hn, hm⟩ := Option.bind_eq_some_iff.1 hm
      cases hm
      exact Json.lt_of_toWord? hn
  | _ => cases h

theorem NameSet.ofJson?_ofStrings (set : NameSet) :
    ofJson? (Json.ofStrings set.names) = some set := by
  rw [ofJson?, Json.ofStrings, Json.toStrings?_strings, Option.bind_eq_bind, Option.bind_some,
    ofList_names]
  rfl

namespace Graph

/-- The depths of a graph fit in a word. -/
def HasWords (g : Graph) : Prop :=
  ∀ e ∈ g.depth.entries, e.2 < Text.countLimit

instance (g : Graph) : Decidable g.HasWords :=
  inferInstanceAs (Decidable (∀ e ∈ g.depth.entries, e.2 < Text.countLimit))

theorem ofValues?_memberValues {g : Graph} (h : g.HasWords) :
    ofValues? g.memberValues = some g := by
  have hcycles : (g.cycles.map Json.ofStrings).mapM Json.toStrings? = some g.cycles :=
    Json.mapM_map_of_forall fun cycle _ => Json.toStrings?_strings cycle
  simp only [memberValues, ofValues?, EdgeMap.ofJson?_toJson, NameTable.ofJson?_toJson h,
    NameSet.ofJson?_ofStrings, Json.toItems?, hcycles, Option.bind_eq_bind, Option.bind_some,
    Option.pure_def]

theorem fits_toJson {g : Graph} (h : g.HasWords) : Fits 3 g.toJson := by
  have hcycles : Fits 2 (.array (g.cycles.map Json.ofStrings)) := by
    intro v hv
    obtain ⟨cycle, -, rfl⟩ := List.mem_map.1 hv
    exact Json.fits_strings cycle 0
  intro m hm
  have hvalue : m.2 ∈ g.memberValues := (List.of_mem_zip hm).2
  simp only [memberValues, List.mem_cons, List.not_mem_nil, or_false] at hvalue
  rcases hvalue with hv | hv | hv | hv | hv | hv | hv <;> rw [hv]
  · exact g.internal.fits_toJson 0
  · exact g.external.fits_toJson 0
  · exact g.stdlib.fits_toJson 0
  · exact hcycles
  · exact NameTable.fits_toJson h 1
  · exact Json.fits_strings _ 1
  · exact Json.fits_strings _ 1

/-- Every text of the value that describes a graph is read as the graph. -/
theorem ofText?_of_isText {g : Graph} (h : g.HasWords) {text : String}
    (htext : IsText g.toJson text) : ofText? text = some g := by
  have hmembers : Json.membersOf? memberNames.contains text =
      some (memberNames.zip g.memberValues) :=
    Json.membersOf?_of_isText (fits_toJson h) (by decide) htext memberNames.contains
  have hvalues : (memberNames.mapM fun name => do
      (← Json.member? (memberNames.zip g.memberValues) name)) = some g.memberValues := rfl
  rw [ofText?, hmembers]
  simp only [ofJson?]
  rw [hvalues, Option.bind_eq_bind, Option.bind_some, ofValues?_memberValues h]

theorem hasWords_of_ofValues? {values : List Json} {g : Graph} (h : ofValues? values = some g) :
    g.HasWords := by
  unfold ofValues? at h
  split at h
  · simp only [Option.bind_eq_bind, Option.bind_eq_some_iff, Option.pure_def,
      Option.some.injEq] at h
    obtain ⟨_, -, _, -, _, -, _, -, _, -, depth, hdepth, _, -, _, -, rfl⟩ := h
    exact NameTable.lt_of_ofJson? hdepth
  · cases h

/-- A graph that was read has depths that fit in a word, in whichever form it was given. -/
theorem hasWords_of_ofText? {text : String} {g : Graph} (h : ofText? text = some g) :
    g.HasWords := by
  unfold ofText? at h
  split at h
  · -- an object: its members are looked up first
    rw [ofJson?, Option.bind_eq_bind, Option.bind_eq_some_iff] at h
    obtain ⟨values, -, hvalues⟩ := h
    exact hasWords_of_ofValues? hvalues
  · split at h
    · exact hasWords_of_ofValues? h
    · cases h

/-- **A graph survives its text.**  What is written for a graph is a text of the value that
describes it, and it is read as the same graph, the order of the keys of its edge maps included.
And every text that is read as a graph at all is read as one whose own text gives it back. -/
theorem ofText?_toText :
    (∀ g : Graph, g.HasWords → IsText g.toJson g.toText ∧ ofText? g.toText = some g) ∧
      ∀ (text : String) (g : Graph), ofText? text = some g → ofText? g.toText = some g := by
  have hwords : ∀ g : Graph, g.HasWords → IsText g.toJson g.toText ∧
      ofText? g.toText = some g := by
    intro g h
    have htext := Json.isText_toCompact (fits_toJson h)
    exact ⟨htext, ofText?_of_isText h htext⟩
  refine ⟨hwords, fun text g h => ?_⟩
  exact (hwords g (hasWords_of_ofText? h)).2

/-- A graph with keys out of order, a name of odd characters, an empty list and the greatest depth;
the text behind it is an array and repeats keys. -/
theorem ofText?_toText_of_repeated_keys :
    let g : Graph := {
      internal := ⟨[("b", ["\"é\\\n"]), ("a", [])], by decide⟩
      external := .empty
      stdlib := ⟨[("", ["os"])], by decide⟩
      cycles := [["b", "b"], []]
      depth := ⟨[("a", 18446744073709551615)], by decide⟩
      internalNodes := ⟨["y", "z"], by decide⟩
      externalNodes := .empty }
    let text := "[\x7b\"b\":[],\"a\":[],\"b\":[\"\\\"\\u00e9\\\\\\n\"]\x7d, \x7b\x7d, " ++
      "\x7b\"\":[\"os\"]\x7d, [[\"b\",\"b\"],[]], \x7b\"a\":0,\"a\":18446744073709551615\x7d, [\"z\",\"y\",\"z\"], []]"
    g.HasWords ∧ (IsText g.toJson g.toText ∧ ofText? g.toText = some g) ∧
      ofText? text = some g ∧ ofText? g.toText = some g := by
  intro g text
  have hwords : g.HasWords := by decide +kernel
  have hread : ofText? text = some g := by decide +kernel
  exact ⟨hwords, ofText?_toText.1 g hwords, hread, ofText?_toText.2 text g hread⟩

end Graph

end ModuleDeps
