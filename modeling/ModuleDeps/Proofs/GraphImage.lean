/-
The graph is the image of the records.

A builder keeps three edge maps, two sets of names and the list of the records, and each record
changes some of them.  Together they never say more than the records do: an edge map holds the
sources and targets of the records of its kind, each once and in the order in which they first
occur, and the sets hold the targets.  This is the invariant `Image`; one record keeps it, and so
does every sequence of modules.

Main definitions:

* `ModuleDeps.Graph.edgesOf` — the edge map of a kind of dependency;
* `ModuleDeps.Graph.sourcesOf`, `ModuleDeps.Graph.targetsOf` — what the records of a kind say;
* `ModuleDeps.Graph.Image` — the graph shows just what the records say;
* `ModuleDeps.Builder.addAll` — one module after another.

Main results:

* `ModuleDeps.Graph.Image.addEdge` — one record more keeps the image;
* `ModuleDeps.Builder.image_addAll` — so does every sequence of modules;
* `ModuleDeps.Builder.graph_eq_image_of_records` — the graph, read off the records.
-/

import Mathlib.Data.List.Induction
import ModuleDeps.Graph.Builder
import ModuleDeps.Proofs.EdgeMaps

set_option relaxedAutoImplicit false
set_option autoImplicit false

namespace ModuleDeps

/-! ### First occurrences -/

/-- One more element is new, or is there already. -/
theorem eraseDups_concat (xs : List String) (x : String) :
    (xs ++ [x]).eraseDups = if x ∈ xs then xs.eraseDups else xs.eraseDups ++ [x] := by
  rw [List.eraseDups_append]
  by_cases hx : x ∈ xs
  · simp [hx, List.removeAll]
  · simp [hx, List.removeAll, List.eraseDups_cons]

theorem nodup_eraseDups (xs : List String) : xs.eraseDups.Nodup := by
  induction xs using List.reverseRecOn with
  | nil => simp
  | append_singleton xs x ih =>
      rw [eraseDups_concat]
      split
      · exact ih
      · next hx =>
        refine List.nodup_append.2 ⟨ih, by simp, fun a ha b hb hab => ?_⟩
        rw [List.mem_singleton] at hb
        exact hx (List.mem_eraseDups.1 (hb ▸ hab ▸ ha))

namespace EdgeMap

/-- The keys of an edge map with one more edge. -/
theorem keys_add (edges : EdgeMap) (key t : String) :
    (edges.add key t).1.keys =
      if key ∈ edges.keys then edges.keys else edges.keys ++ [key] := by
  rw [add]
  split
  · next ht => rw [if_pos (mem_keys_of_mem_targets ht)]
  · rw [keys_set]

/-- The targets in an edge map with one more edge. -/
theorem targets_add (edges : EdgeMap) (key t x : String) :
    (edges.add key t).1.targets x =
      if key = x ∧ t ∉ edges.targets x then edges.targets x ++ [t] else edges.targets x := by
  rw [add]
  split
  · next ht =>
    rw [if_neg]
    rintro ⟨rfl, h⟩
    exact h ht
  · next ht =>
    rw [targets, get?_set]
    by_cases hx : key = x
    · subst hx
      rw [if_pos rfl, if_pos ⟨rfl, ht⟩, Option.getD_some]
    · rw [if_neg hx, if_neg fun h => hx h.1, targets]

end EdgeMap

/-! ### Edges by kind -/

namespace Graph

/-- The edge map of a kind of dependency; dependencies of an unknown kind are no edges. -/
def edgesOf (g : Graph) : DependencyKind → EdgeMap
  | .internal => g.internal
  | .external => g.external
  | .stdlib => g.stdlib
  | .unknown => .empty

/-- The sources of the records of a kind, in order. -/
def sourcesOf (kind : DependencyKind) (records : List ImportRecord) : List String :=
  (records.filter (·.kind == kind)).map ImportRecord.source

/-- The targets of the records of a kind, in order. -/
def targetsOf (kind : DependencyKind) (records : List ImportRecord) : List String :=
  (records.filter (·.kind == kind)).map ImportRecord.target

/-- The records of a source, in order. -/
def recordsFrom (source : String) (records : List ImportRecord) : List ImportRecord :=
  records.filter (·.source == source)

theorem sourcesOf_concat (kind : DependencyKind) (records : List ImportRecord) (r : ImportRecord) :
    sourcesOf kind (records ++ [r]) =
      if r.kind = kind then sourcesOf kind records ++ [r.source] else sourcesOf kind records := by
  by_cases h : r.kind = kind <;> simp [sourcesOf, h]

theorem targetsOf_concat (kind : DependencyKind) (records : List ImportRecord) (r : ImportRecord) :
    targetsOf kind (records ++ [r]) =
      if r.kind = kind then targetsOf kind records ++ [r.target] else targetsOf kind records := by
  by_cases h : r.kind = kind <;> simp [targetsOf, h]

theorem recordsFrom_concat (source : String) (records : List ImportRecord) (r : ImportRecord) :
    recordsFrom source (records ++ [r]) =
      if r.source = source then recordsFrom source records ++ [r]
      else recordsFrom source records := by
  by_cases h : r.source = source <;> simp [recordsFrom, h]

/-- The graph shows just what the records say. -/
structure Image (g : Graph) (records : List ImportRecord) : Prop where
  /-- Every kind has been decided. -/
  kinds : ∀ r ∈ records, r.kind ≠ .unknown
  /-- The keys are the sources, in the order in which they first occur. -/
  keys : ∀ kind, (g.edgesOf kind).keys = (sourcesOf kind records).eraseDups
  /-- The targets of a key are the targets of its records, in the order in which they first
  occur. -/
  targets : ∀ kind source, (g.edgesOf kind).targets source =
    (targetsOf kind (recordsFrom source records)).eraseDups
  /-- The internal nodes are the targets of the internal records. -/
  internalNodes : ∀ x, x ∈ g.internalNodes.names ↔ x ∈ targetsOf .internal records
  /-- The external nodes are the targets of the external records. -/
  externalNodes : ∀ x, x ∈ g.externalNodes.names ↔ x ∈ targetsOf .external records
  /-- No cycle has been computed. -/
  cycles : g.cycles = []
  /-- No depth has been computed. -/
  depth : g.depth = .empty

theorem image_empty : Image .empty [] where
  kinds := by simp
  keys := fun kind => by cases kind <;> rfl
  targets := fun kind source => by cases kind <;> rfl
  internalNodes := by simp [empty, NameSet.empty, targetsOf]
  externalNodes := by simp [empty, NameSet.empty, targetsOf]
  cycles := rfl
  depth := rfl

/-- One more edge of a known kind changes the edge map of its kind only. -/
theorem edgesOf_addEdge (g : Graph) {kind : DependencyKind} (hkind : kind ≠ .unknown)
    (source t : String) (other : DependencyKind) :
    (g.addEdge kind source t).1.edgesOf other =
      if kind = other then ((g.edgesOf other).add source t).1 else g.edgesOf other := by
  cases kind with
  | unknown => exact absurd rfl hkind
  | internal => cases other <;> rfl
  | external => cases other <;> rfl
  | stdlib => cases other <;> rfl

theorem mem_internalNodes_addEdge (g : Graph) (kind : DependencyKind) (source t x : String) :
    x ∈ (g.addEdge kind source t).1.internalNodes.names ↔
      (kind = .internal ∧ x = t) ∨ x ∈ g.internalNodes.names := by
  cases kind <;> simp [addEdge]

theorem mem_externalNodes_addEdge (g : Graph) (kind : DependencyKind) (source t x : String) :
    x ∈ (g.addEdge kind source t).1.externalNodes.names ↔
      (kind = .external ∧ x = t) ∨ x ∈ g.externalNodes.names := by
  cases kind <;> simp [addEdge]

/-- One record more keeps the image. -/
theorem Image.addEdge {g : Graph} {records : List ImportRecord} (h : Image g records)
    {r : ImportRecord} (hr : r.kind ≠ .unknown) :
    Image (g.addEdge r.kind r.source r.target).1 (records ++ [r]) where
  kinds := by
    intro x hx
    rcases List.mem_append.1 hx with hx | hx
    · exact h.kinds x hx
    · rwa [List.mem_singleton.1 hx]
  keys := by
    intro kind
    rw [edgesOf_addEdge g hr, sourcesOf_concat]
    split
    · rw [EdgeMap.keys_add, h.keys kind, eraseDups_concat]
      simp only [List.mem_eraseDups]
    · exact h.keys kind
  targets := by
    intro kind source
    rw [edgesOf_addEdge g hr, recordsFrom_concat]
    by_cases hkind : r.kind = kind
    · rw [if_pos hkind, EdgeMap.targets_add, h.targets kind source]
      by_cases hsource : r.source = source
      · rw [if_pos hsource, targetsOf_concat, if_pos hkind, eraseDups_concat]
        simp only [List.mem_eraseDups, hsource, true_and, ite_not]
      · rw [if_neg hsource, if_neg fun hc => hsource hc.1]
    · rw [if_neg hkind, h.targets kind source]
      split
      · rw [targetsOf_concat, if_neg hkind]
      · rfl
  internalNodes := by
    intro x
    rw [mem_internalNodes_addEdge, targetsOf_concat, h.internalNodes x]
    split
    · next hk => simp [hk, or_comm]
    · next hk => simp [hk]
  externalNodes := by
    intro x
    rw [mem_externalNodes_addEdge, targetsOf_concat, h.externalNodes x]
    split
    · next hk => simp [hk, or_comm]
    · next hk => simp [hk]
  cycles := by
    have := h.cycles
    cases r.kind <;> exact this
  depth := by
    have := h.depth
    cases r.kind <;> exact this

/-- No record is lost, not even one that points at its own source. -/
theorem Image.mem_targets {g : Graph} {records : List ImportRecord} (h : Image g records)
    {r : ImportRecord} (hr : r ∈ records) : r.target ∈ (g.edgesOf r.kind).targets r.source := by
  rw [h.targets, List.mem_eraseDups, targetsOf, recordsFrom]
  refine List.mem_map.2 ⟨r, ?_, rfl⟩
  simp [hr]

end Graph

/-! ### Building -/

/-- The first rule that matches decides, and no rule leaves the kind open. -/
theorem Classifier.classify_ne_unknown (classifier : Classifier) (internal : List String)
    (name : String) : classifier.classify internal name ≠ .unknown := by
  rw [classify]
  cases classifier.rule? internal name with
  | none => simp
  | some rule => cases rule <;> simp [Rule.kind]

theorem Project.kind_ne_unknown_of_mem_process {project : Project} {statement source : String}
    {r : ImportRecord} (hr : r ∈ project.process statement source) : r.kind ≠ .unknown := by
  obtain ⟨r', -, rfl⟩ := List.mem_map.1 hr
  exact Classifier.classify_ne_unknown _ _ _

namespace Builder

/-- The builder after one module and then the next. -/
def addAll (b : Builder) (modules : List SourceModule) : Builder :=
  modules.foldl (fun b m => (b.addModule m).1) b

@[simp] theorem addAll_nil (b : Builder) : b.addAll [] = b := rfl

@[simp] theorem addAll_cons (b : Builder) (m : SourceModule) (ms : List SourceModule) :
    b.addAll (m :: ms) = (b.addModule m).1.addAll ms := rfl

theorem kind_ne_unknown_of_mem_recordsOf {b : Builder} {m : SourceModule} {r : ImportRecord}
    (hr : r ∈ b.recordsOf m) : r.kind ≠ .unknown := by
  obtain ⟨statement, -, hr⟩ := List.mem_flatMap.1 hr
  exact Project.kind_ne_unknown_of_mem_process hr

@[simp] theorem records_addRecord (b : Builder) (r : ImportRecord) :
    (b.addRecord r).records = b.records ++ [r] := by
  simp [records, addRecord]

theorem records_foldl_addRecord (b : Builder) (rs : List ImportRecord) :
    (rs.foldl addRecord b).records = b.records ++ rs := by
  induction rs generalizing b with
  | nil => simp
  | cons r rs ih => rw [List.foldl_cons, ih, records_addRecord, List.append_assoc]; rfl

/-- A module appends its records. -/
theorem records_addModule (b : Builder) (m : SourceModule) :
    (b.addModule m).1.records = b.records ++ b.recordsOf m :=
  records_foldl_addRecord b _

theorem project_addModule (b : Builder) (m : SourceModule) :
    (b.addModule m).1.project = b.project := by
  have hfold : ∀ (rs : List ImportRecord) (b : Builder),
      (rs.foldl addRecord b).project = b.project := by
    intro rs
    induction rs with
    | nil => exact fun b => rfl
    | cons r rs ih => exact fun b => ih (b.addRecord r)
  exact hfold _ b

/-- The modules append their records one after the other. -/
theorem records_addAll (b : Builder) (modules : List SourceModule) :
    (b.addAll modules).records = b.records ++ modules.flatMap b.recordsOf := by
  induction modules generalizing b with
  | nil => simp
  | cons m ms ih =>
      -- what a module appends depends on the project only, which no module changes
      have hrecords : (b.addModule m).1.recordsOf = b.recordsOf := by
        funext m'
        rw [recordsOf, project_addModule, recordsOf]
      rw [addAll_cons, ih, hrecords, records_addModule, List.flatMap_cons, List.append_assoc]

/-- The number that a module gives is the number of the records that it appends. -/
theorem count_addModule (b : Builder) (m : SourceModule) :
    (b.addModule m).2 = (b.recordsOf m).length := rfl

/-- Records of a decided kind keep the image. -/
theorem image_foldl_addRecord {b : Builder} (h : b.graph.Image b.records)
    {rs : List ImportRecord} (hrs : ∀ r ∈ rs, r.kind ≠ .unknown) :
    (rs.foldl addRecord b).graph.Image (rs.foldl addRecord b).records := by
  induction rs generalizing b with
  | nil => exact h
  | cons r rs ih =>
      refine ih ?_ fun x hx => hrs x (List.mem_cons_of_mem _ hx)
      rw [records_addRecord]
      exact h.addEdge (hrs r List.mem_cons_self)

/-- One module keeps the image. -/
theorem image_addModule {b : Builder} (h : b.graph.Image b.records) (m : SourceModule) :
    (b.addModule m).1.graph.Image (b.addModule m).1.records :=
  image_foldl_addRecord h fun _ hr => kind_ne_unknown_of_mem_recordsOf hr

/-- Every sequence of modules keeps the image. -/
theorem image_addAll {b : Builder} (h : b.graph.Image b.records) (modules : List SourceModule) :
    (b.addAll modules).graph.Image (b.addAll modules).records := by
  induction modules generalizing b with
  | nil => exact h
  | cons m ms ih => exact ih (image_addModule h m)

theorem image_start (project : Project) :
    (start project).graph.Image (start project).records :=
  Graph.image_empty

/-- **The graph is the image of the records.**  Whatever modules are added to the builder of a
project, in whatever order: the records are those of their statements, one after the other; the edge
map of each kind holds the sources and targets of the records of this kind, each once and in the
order in which they first occur, so that no list is empty and no record is lost; the node sets hold
the targets of the internal and of the external records; nothing has been computed yet; every kind
is decided; and one more module tells how many records it appends. -/
theorem graph_eq_image_of_records (classifier : Classifier) (modules added : List SourceModule) :
    let project := Project.ofModules classifier modules
    let b := (start project).addAll added
    b.records = added.flatMap (fun m =>
      m.imports.flatMap fun statement => project.process statement m.name) ∧
    (∀ kind, (b.graph.edgesOf kind).keys = (Graph.sourcesOf kind b.records).eraseDups) ∧
    (∀ kind source targets, (b.graph.edgesOf kind).get? source = some targets →
      targets = (Graph.targetsOf kind (Graph.recordsFrom source b.records)).eraseDups ∧
      targets ≠ [] ∧ targets.Nodup) ∧
    (∀ r ∈ b.records, r.target ∈ (b.graph.edgesOf r.kind).targets r.source) ∧
    (∀ x, x ∈ b.graph.internalNodes.names ↔ x ∈ Graph.targetsOf .internal b.records) ∧
    (∀ x, x ∈ b.graph.externalNodes.names ↔ x ∈ Graph.targetsOf .external b.records) ∧
    b.graph.cycles = [] ∧ b.graph.depth = .empty ∧
    (∀ r ∈ b.records, r.kind ≠ .unknown) ∧
    (∀ m, ∃ new, (b.addModule m).1.records = b.records ++ new ∧
      (b.addModule m).2 = new.length) := by
  intro project b
  have h : b.graph.Image b.records := image_addAll (image_start _) added
  refine ⟨records_addAll (start project) added, h.keys, fun kind source targets hget => ?_,
    fun r hr => h.mem_targets hr, h.internalNodes, h.externalNodes, h.cycles, h.depth, h.kinds,
    fun m => ⟨b.recordsOf m, records_addModule b m, count_addModule b m⟩⟩
  have htargets : targets = (Graph.targetsOf kind (Graph.recordsFrom source b.records)).eraseDups :=
    (EdgeMap.targets_of_get? hget).symm.trans (h.targets kind source)
  refine ⟨htargets, ?_, by rw [htargets]; exact nodup_eraseDups _⟩
  -- a key is the source of some record, whose target it has
  have hkey : source ∈ (b.graph.edgesOf kind).keys :=
    EdgeMap.isKey_iff.1 (by rw [EdgeMap.isKey, hget]; rfl)
  rw [h.keys, List.mem_eraseDups, Graph.sourcesOf] at hkey
  obtain ⟨r, hr, rfl⟩ := List.mem_map.1 hkey
  obtain ⟨hmem, hkind⟩ := List.mem_filter.1 hr
  obtain rfl : r.kind = kind := by simpa using hkind
  have hmem := h.mem_targets hmem
  rw [EdgeMap.targets_of_get? hget] at hmem
  exact List.ne_nil_of_mem hmem

end Builder

end ModuleDeps
