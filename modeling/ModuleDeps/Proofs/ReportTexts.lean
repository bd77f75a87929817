/-
The JSON of reports is canonical.

Objects are written with their members in the order of the names, so the order in which an edge map
was filled is not seen.  Everything else is: names, targets and their order, cycles, depths,
records, errors and warnings.  Two lists of reports therefore have the same text exactly where they
hold the same data, and both layouts of a text are read as the same value.

The argument goes through the values.  A text is read back as its value, so equal texts have equal
values; and the value of each part gives the part back, an edge map up to the order of its entries.

Main definitions:

* `ModuleDeps.Graph.SameData`, `ModuleDeps.Report.SameData` — equal but for the order of the entries
  of edge maps;
* `ModuleDeps.Report.HasWords` — the numbers of a report fit in a word.

Main results:

* `ModuleDeps.Json.sortedObject_eq_iff` — objects in order are equal if their members are the same;
* `ModuleDeps.Report.toJson_eq_iff` — the value of a report holds its data;
* `ModuleDeps.Report.fits_jsonValue` — the value of reports is within the limits of reading;
* `ModuleDeps.Report.jsonText_canonical` — **texts of reports are canonical**.
-/

import ModuleDeps.Proofs.GraphTexts
import ModuleDeps.Proofs.JsonDoubles
import ModuleDeps.Report.Json

set_option relaxedAutoImplicit false
set_option autoImplicit false

namespace ModuleDeps

/-! ### Members in order -/

namespace Json

variable {ms ms' : List (String × Json)}

theorem sorted_perm (ms : List (String × Json)) : (sorted ms).Perm ms :=
  List.mergeSort_perm ms _

theorem pairwise_sorted (ms : List (String × Json)) : (sorted ms).Pairwise (·.1 ≤ ·.1) := by
  rw [sorted]
  refine (List.pairwise_mergeSort (fun a b c hab hbc => ?_) (fun a b => ?_) ms).imp
    of_decide_eq_true
  · exact decide_eq_true (String.le_trans (of_decide_eq_true hab) (of_decide_eq_true hbc))
  · rw [Bool.or_eq_true, decide_eq_true_eq, decide_eq_true_eq]
    exact String.le_total a.1 b.1

/-- Where no name stands twice, the order of the names fixes the order of the members. -/
theorem sorted_eq_iff (h : (ms.map Prod.fst).Nodup) : sorted ms = sorted ms' ↔ ms.Perm ms' := by
  constructor
  · intro heq
    exact (sorted_perm ms).symm.trans (heq ▸ sorted_perm ms')
  · intro hperm
    have hsorted := (sorted_perm ms).trans (hperm.trans (sorted_perm ms').symm)
    refine hsorted.eq_of_pairwise (fun a b ha hb hab hba => ?_) (pairwise_sorted ms)
      (pairwise_sorted ms')
    -- no name stands twice, so members with the same name are equal
    have hb' : b ∈ ms := hperm.symm.subset ((sorted_perm ms').subset hb)
    exact List.inj_on_of_nodup_map h ((sorted_perm ms).subset ha) hb' (String.le_antisymm hab hba)

/-- Members with the same names in the same order are equal if they are a permutation. -/
theorem eq_of_perm (hkeys : ms.map Prod.fst = ms'.map Prod.fst) (h : (ms.map Prod.fst).Nodup)
    (hperm : ms.Perm ms') : ms = ms' := by
  refine List.ext_getElem hperm.length_eq fun i hi hi' => ?_
  have hfst : ms[i].1 = ms'[i].1 := by
    have := congrArg (fun keys => keys[i]?) hkeys
    simpa [hi, hi'] using this
  exact List.inj_on_of_nodup_map h (List.getElem_mem hi) (hperm.symm.subset (List.getElem_mem hi'))
    hfst

/-- Objects in order are equal exactly if their members are the same. -/
theorem sortedObject_eq_iff (h : (ms.map Prod.fst).Nodup) :
    sortedObject ms = sortedObject ms' ↔ ms.Perm ms' := by
  rw [sortedObject, sortedObject, object.injEq, sorted_eq_iff h]

/-- Objects in order with given names are equal exactly if their members are equal one by one. -/
theorem sortedObject_eq_iff_of_keys (hkeys : ms.map Prod.fst = ms'.map Prod.fst)
    (h : (ms.map Prod.fst).Nodup) : sortedObject ms = sortedObject ms' ↔ ms = ms' := by
  rw [sortedObject_eq_iff h]
  constructor
  · exact eq_of_perm hkeys h
  · rintro rfl
    exact .refl ms

theorem fits_sortedObject {levels : Nat} (h : ∀ m ∈ ms, Fits levels m.2) :
    Fits (levels + 1) (sortedObject ms) := by
  intro m hm
  exact h m ((sorted_perm ms).subset hm)

theorem string_injective : Function.Injective string := fun _ _ h => string.inj h

theorem ofStrings_injective : Function.Injective ofStrings := by
  intro ss ss' h
  exact string_injective.list_map (array.inj h)

end Json

/-! ### Parts -/

open Json (Fits sortedObject ofStrings_injective sortedObject_eq_iff_of_keys)

theorem EdgeMap.toSortedJson_eq_iff {edges edges' : EdgeMap} :
    edges.toSortedJson = edges'.toSortedJson ↔ edges.entries.Perm edges'.entries := by
  have hinj : Function.Injective fun e : String × List String => (e.1, Json.ofStrings e.2) := by
    intro e e' h
    rw [Prod.mk.injEq] at h
    exact Prod.ext h.1 (ofStrings_injective h.2)
  have hkeys : ((edges.entries.map fun e => (e.1, Json.ofStrings e.2)).map Prod.fst).Nodup := by
    rw [List.map_map]
    exact edges.nodup
  rw [toSortedJson, toSortedJson, Json.sortedObject_eq_iff hkeys, List.map_perm_map_iff hinj]

theorem NameTable.toJson_injective : Function.Injective (NameTable.toJson) := by
  intro table table' h
  have hinj : Function.Injective fun e : String × Nat => (e.1, Json.ofNat e.2) := by
    intro e e' he
    rw [Prod.mk.injEq] at he
    exact Prod.ext he.1 (Json.ofNat_injective he.2)
  exact (NameTable.mk.injEq ..).mpr (hinj.list_map (Json.object.inj h))

/-- Two graphs are equal but for the order of the entries of their edge maps. -/
structure Graph.SameData (g g' : Graph) : Prop where
  internal : g.internal.entries.Perm g'.internal.entries
  external : g.external.entries.Perm g'.external.entries
  stdlib : g.stdlib.entries.Perm g'.stdlib.entries
  cycles : g.cycles = g'.cycles
  depth : g.depth = g'.depth
  internalNodes : g.internalNodes = g'.internalNodes
  externalNodes : g.externalNodes = g'.externalNodes

theorem Graph.toSortedJson_eq_iff {g g' : Graph} :
    g.toSortedJson = g'.toSortedJson ↔ g.SameData g' := by
  refine (sortedObject_eq_iff_of_keys (by rfl) (by simp)).trans ?_
  simp only [List.cons.injEq, Prod.mk.injEq, true_and, and_true, EdgeMap.toSortedJson_eq_iff,
    Json.array.injEq, ofStrings_injective.list_map.eq_iff, NameTable.toJson_injective.eq_iff,
    ofStrings_injective.eq_iff]
  constructor
  · rintro ⟨hinternal, hexternal, hstdlib, hcycles, hdepth, hinternalNodes, hexternalNodes⟩
    exact ⟨hinternal, hexternal, hstdlib, hcycles, hdepth, (NameSet.mk.injEq ..).mpr hinternalNodes,
      (NameSet.mk.injEq ..).mpr hexternalNodes⟩
  · rintro ⟨hinternal, hexternal, hstdlib, hcycles, hdepth, hinternalNodes, hexternalNodes⟩
    exact ⟨hinternal, hexternal, hstdlib, hcycles, hdepth, congrArg NameSet.names hinternalNodes,
      congrArg NameSet.names hexternalNodes⟩

theorem DependencyKind.text_injective : Function.Injective DependencyKind.text := by
  intro kind kind' h
  cases kind <;> cases kind' <;> simp_all [DependencyKind.text]

theorem ImportForm.text_injective : Function.Injective ImportForm.text := by
  intro form form' h
  cases form <;> cases form' <;> simp_all [ImportForm.text]

theorem ImportRecord.toJson_injective : Function.Injective ImportRecord.toJson := by
  intro record record' h
  replace h := (sortedObject_eq_iff_of_keys (by rfl) (by simp)).1 h
  simp only [List.cons.injEq, Prod.mk.injEq, true_and, and_true, Json.string.injEq,
    DependencyKind.text_injective.eq_iff, ImportForm.text_injective.eq_iff,
    ofStrings_injective.eq_iff] at h
  obtain ⟨hname, hkind, hform, hsource, hstatement, hresolved, hitems⟩ := h
  obtain ⟨name, kind, form, source, statement, resolved, items⟩ := record
  obtain ⟨name', kind', form', source', statement', resolved', items'⟩ := record'
  have heq : resolved = resolved' := by
    cases resolved <;> cases resolved' <;> simp_all
  simp_all

/-- The figures are written in the same way: the counts are equal, and the averages have the same
digits. -/
def Statistics.SameFigures (s s' : Statistics) : Prop :=
  s.metrics.map (fun m => m.2.toJson) = s'.metrics.map (fun m => m.2.toJson)

theorem Statistics.toJson_eq_iff {s s' : Statistics} : s.toJson = s'.toJson ↔ s.SameFigures s' := by
  refine (sortedObject_eq_iff_of_keys (by rfl) (by simp [metrics])).trans ?_
  simp only [SameFigures, metrics, List.map_cons, List.map_nil, List.cons.injEq, Prod.mk.injEq,
    true_and, and_true]

namespace Report

/-- Two reports hold the same data: they are equal but for the order of the entries of their edge
maps. -/
structure SameData (r r' : Report) : Prop where
  input : r.input = r'.input
  moduleCount : r.moduleCount = r'.moduleCount
  analyzedAt : r.analyzedAt = r'.analyzedAt
  graph : r.result.graph.SameData r'.result.graph
  records : r.result.records = r'.result.records
  statistics : r.result.statistics.SameFigures r'.result.statistics
  errors : r.result.errors = r'.result.errors
  warnings : r.result.warnings = r'.result.warnings

/-- **The value of a report holds its data.** -/
theorem toJson_eq_iff {r r' : Report} : r.toJson = r'.toJson ↔ r.SameData r' := by
  refine (sortedObject_eq_iff_of_keys (by rfl) (by simp)).trans ?_
  have hcount : Json.ofNat r.moduleCount = Json.ofNat r'.moduleCount ↔
      r.moduleCount = r'.moduleCount := ⟨Json.ofNat_injective, congrArg Json.ofNat⟩
  have hresult : r.result.toJson = r'.result.toJson ↔ r.result.graph.SameData r'.result.graph ∧
      r.result.records = r'.result.records ∧
      r.result.statistics.SameFigures r'.result.statistics ∧
      r.result.errors = r'.result.errors ∧ r.result.warnings = r'.result.warnings := by
    refine (sortedObject_eq_iff_of_keys (by rfl) (by simp)).trans ?_
    simp only [List.cons.injEq, Prod.mk.injEq, true_and, and_true, Graph.toSortedJson_eq_iff,
      Json.array.injEq, ImportRecord.toJson_injective.list_map.eq_iff, Statistics.toJson_eq_iff,
      ofStrings_injective.eq_iff]
  simp only [List.cons.injEq, Prod.mk.injEq, true_and, and_true, Json.string.injEq, hcount, hresult]
  constructor
  · rintro ⟨hinput, hcount, htime, hgraph, hrecords, hstatistics, herrors, hwarnings⟩
    exact ⟨hinput, hcount, htime, hgraph, hrecords, hstatistics, herrors, hwarnings⟩
  · rintro ⟨hinput, hcount, htime, hgraph, hrecords, hstatistics, herrors, hwarnings⟩
    exact ⟨hinput, hcount, htime, hgraph, hrecords, hstatistics, herrors, hwarnings⟩

end Report

/-! ### Limits -/

theorem EdgeMap.fits_toSortedJson (edges : EdgeMap) (levels : Nat) :
    Fits (levels + 2) edges.toSortedJson := by
  refine Json.fits_sortedObject fun m hm => ?_
  obtain ⟨e, -, rfl⟩ := List.mem_map.1 hm
  exact Json.fits_strings e.2 levels

theorem Graph.fits_toSortedJson {g : Graph} (h : g.HasWords) (levels : Nat) :
    Fits (levels + 3) g.toSortedJson := by
  have hcycles : Fits (levels + 2) (.array (g.cycles.map Json.ofStrings)) := by
    intro v hv
    obtain ⟨cycle, -, rfl⟩ := List.mem_map.1 hv
    exact Json.fits_strings cycle levels
  refine Json.fits_sortedObject ?_
  simp only [List.forall_mem_cons]
  exact ⟨g.internal.fits_toSortedJson levels, g.external.fits_toSortedJson levels,
    g.stdlib.fits_toSortedJson levels, hcycles, NameTable.fits_toJson h _,
    Json.fits_strings _ _, Json.fits_strings _ _, by simp⟩

theorem ImportRecord.fits_toJson (record : ImportRecord) (levels : Nat) :
    Fits (levels + 2) record.toJson := by
  have hresolved : Fits (levels + 1) ((record.resolved.map Json.string).getD .null) := by
    cases record.resolved with
    | none => exact Json.fits_null _
    | some name => exact Json.fits_string _ name
  refine Json.fits_sortedObject ?_
  simp only [List.forall_mem_cons, Json.fits_string, true_and]
  exact ⟨hresolved, Json.fits_strings record.items levels, by simp⟩

/-- A count fits in a word. -/
def Metric.HasWord : Metric → Prop
  | .count n => n < Text.countLimit
  | .average _ => True

instance (m : Metric) : Decidable m.HasWord :=
  match m with
  | .count n => inferInstanceAs (Decidable (n < Text.countLimit))
  | .average _ => inferInstanceAs (Decidable True)

/-- An average is written as a number that is read, or as `null`. -/
theorem Metric.fits_toJson {m : Metric} (h : m.HasWord) (levels : Nat) : Fits levels m.toJson := by
  cases m with
  | count n => exact Json.fits_ofNat h levels
  | average x =>
      rw [toJson]
      split
      · next hfinite =>
        rw [Fits]
        exact Decimal.isReadableNumber_shortestText hfinite
      · exact Json.fits_null levels

theorem Statistics.fits_toJson {s : Statistics} (h : ∀ m ∈ s.metrics, m.2.HasWord) (levels : Nat) :
    Fits (levels + 1) s.toJson := by
  refine Json.fits_sortedObject fun m hm => ?_
  obtain ⟨figure, hfigure, rfl⟩ := List.mem_map.1 hm
  exact Metric.fits_toJson (h figure hfigure) levels

namespace Report

/-- The numbers of a report fit in a word. -/
structure HasWords (r : Report) : Prop where
  moduleCount : r.moduleCount < Text.countLimit
  depth : r.result.graph.HasWords
  figures : ∀ m ∈ r.result.statistics.metrics, m.2.HasWord

theorem fits_toJson {r : Report} (h : r.HasWords) (levels : Nat) : Fits (levels + 5) r.toJson := by
  have hrecords : Fits (levels + 3) (.array (r.result.records.map ImportRecord.toJson)) := by
    intro v hv
    obtain ⟨record, -, rfl⟩ := List.mem_map.1 hv
    exact record.fits_toJson levels
  have hresult : Fits (levels + 4) r.result.toJson := by
    refine Json.fits_sortedObject ?_
    simp only [List.forall_mem_cons]
    exact ⟨Graph.fits_toSortedJson h.depth levels, hrecords, Statistics.fits_toJson h.figures _,
      Json.fits_strings _ _, Json.fits_strings _ _, by simp⟩
  refine Json.fits_sortedObject ?_
  simp only [List.forall_mem_cons, Json.fits_string, true_and]
  exact ⟨Json.fits_ofNat h.moduleCount _, hresult, by simp⟩

/-- The value of reports is an object for one report only, and an array of their values for any
other number. -/
theorem jsonValue_cases (rs : List Report) :
    (∃ r, rs = [r] ∧ jsonValue rs = r.toJson) ∨
      rs.length ≠ 1 ∧ jsonValue rs = .array (rs.map toJson) := by
  rcases rs with _ | ⟨r, _ | ⟨r', rs⟩⟩
  · exact Or.inr ⟨by simp, rfl⟩
  · exact Or.inl ⟨r, rfl, rfl⟩
  · exact Or.inr ⟨by simp, rfl⟩

theorem fits_jsonValue {rs : List Report} (h : ∀ r ∈ rs, r.HasWords) : Fits 6 (jsonValue rs) := by
  rcases jsonValue_cases rs with ⟨r, rfl, hvalue⟩ | ⟨-, hvalue⟩ <;> rw [hvalue]
  · exact fits_toJson (h r List.mem_cons_self) 1
  · intro v hv
    obtain ⟨r, hr, rfl⟩ := List.mem_map.1 hv
    exact fits_toJson (h r hr) 0

/-- Both layouts are texts of the same value. -/
theorem isText_jsonText {rs : List Report} (h : ∀ r ∈ rs, r.HasWords) (pretty : Bool) :
    Json.IsText (jsonValue rs) (jsonText pretty rs) := by
  cases pretty with
  | false => exact Json.isText_toCompact (fits_jsonValue h)
  | true => exact Json.isText_toPretty (fits_jsonValue h)

theorem read_jsonText {rs : List Report} (h : ∀ r ∈ rs, r.HasWords) (pretty : Bool) :
    Json.read (jsonText pretty rs) = .ok (jsonValue rs) :=
  Json.read_of_isText (fits_jsonValue h) (by decide) (isText_jsonText h pretty)

/-- The values of reports hold their data, and how many there are. -/
theorem jsonValue_eq_iff {rs rs' : List Report} :
    jsonValue rs = jsonValue rs' ↔ List.Forall₂ SameData rs rs' := by
  have hmap : rs.map toJson = rs'.map toJson ↔ List.Forall₂ SameData rs rs' := by
    rw [← List.forall₂_eq_eq_eq, List.forall₂_map_left_iff, List.forall₂_map_right_iff]
    simp only [toJson_eq_iff]
  -- an object never equals an array, and the lengths differ in the same two cases
  rcases jsonValue_cases rs with ⟨r, rfl, hvalue⟩ | ⟨hlength, hvalue⟩ <;>
    rcases jsonValue_cases rs' with ⟨r', rfl, hvalue'⟩ | ⟨hlength', hvalue'⟩ <;>
    rw [hvalue, hvalue']
  · rw [List.forall₂_cons]
    simp [toJson_eq_iff]
  · refine ⟨fun heq => absurd heq (by simp [toJson, sortedObject]), fun hsame => ?_⟩
    exact absurd hsame.length_eq.symm hlength'
  · refine ⟨fun heq => absurd heq (by simp [toJson, sortedObject]), fun hsame => ?_⟩
    exact absurd hsame.length_eq hlength
  · rw [Json.array.injEq, hmap]

/-- **Texts of reports are canonical.**  Both layouts are read as one value: an object for one
report, and an array of the reports in order for any other number.  Two lists of reports have the
same text, in either layout, exactly if they hold the same data one by one. -/
theorem jsonText_canonical (rs : List Report) (h : ∀ r ∈ rs, r.HasWords) :
    (∀ pretty, Json.read (jsonText pretty rs) = .ok (jsonValue rs)) ∧
      (∀ r, rs = [r] → ∃ members, jsonValue rs = r.toJson ∧ r.toJson = .object members) ∧
      (rs.length ≠ 1 → jsonValue rs = .array (rs.map toJson)) ∧
      ∀ rs', (∀ r ∈ rs', r.HasWords) → ∀ pretty,
        jsonText pretty rs = jsonText pretty rs' ↔ List.Forall₂ SameData rs rs' := by
  refine ⟨read_jsonText h, ?_, fun hlength => ?_, fun rs' h' pretty => ⟨fun htext => ?_,
    fun hsame => ?_⟩⟩
  · rintro r rfl
    exact ⟨_, rfl, rfl⟩
  · rcases jsonValue_cases rs with ⟨r, rfl, -⟩ | ⟨-, hvalue⟩
    · exact absurd rfl hlength
    · exact hvalue
  · -- equal texts are read as equal values
    have hread := read_jsonText h pretty
    rw [htext, read_jsonText h' pretty] at hread
    exact jsonValue_eq_iff.1 (Except.ok.inj hread).symm
  · rw [jsonText, jsonText, jsonValue_eq_iff.2 hsame]

/-- The order of the keys is not seen in either layout, a warning more is. -/
theorem jsonText_canonical_of_swapped_keys :
    let report : EdgeMap → List String → Report := fun edges warnings =>
      ⟨"in.json", 2, "",
        { Graph.empty with internal := edges }, [], .ofGraph [] .empty, [], warnings⟩
    let r := report ⟨[("b", ["a\"", "c"]), ("a", [])], by decide⟩ []
    let swapped := report ⟨[("a", []), ("b", ["a\"", "c"])], by decide⟩ []
    let warned := report ⟨[("a", []), ("b", ["a\"", "c"])], by decide⟩ ["w"]
    (r.HasWords ∧ swapped.HasWords ∧ warned.HasWords) ∧
      Json.read (jsonText true [r]) = .ok r.toJson ∧
      (∀ pretty, jsonText pretty [r] = jsonText pretty [swapped]) ∧
      ∀ pretty, jsonText pretty [r] ≠ jsonText pretty [warned] := by
  intro report r swapped warned
  have hfigures : ∀ m ∈ (Statistics.ofGraph [] .empty).metrics, m.2.HasWord := by
    decide +kernel
  have hcount : 2 < Text.countLimit := by decide
  have hwords : ∀ edges warnings, (report edges warnings).HasWords := fun edges warnings =>
    ⟨hcount, fun e he => absurd he List.not_mem_nil, hfigures⟩
  have hall : ∀ edges warnings, ∀ r ∈ [report edges warnings], r.HasWords := by
    intro edges warnings r hr
    rw [List.mem_singleton.1 hr]
    exact hwords edges warnings
  obtain ⟨hread, -, -, hsame⟩ := jsonText_canonical [r] (hall _ _)
  refine ⟨⟨hwords _ _, hwords _ _, hwords _ _⟩, hread true, fun pretty => ?_, fun pretty heq => ?_⟩
  · refine (hsame [swapped] (hall _ _) pretty).2 (.cons ?_ .nil)
    exact ⟨rfl, rfl, rfl, ⟨.swap _ _ _, .nil, .nil, rfl, rfl, rfl, rfl⟩, rfl, rfl, rfl, rfl⟩
  · have hdata := (hsame [warned] (hall _ _) pretty).1 heq
    cases hdata with
    | cons hdata _ => exact absurd hdata.warnings (by decide)

end Report

end ModuleDeps
