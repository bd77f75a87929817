/-
The table of some reports loses nothing.

A report in CSV has a row for each record.  Its fields are arbitrary texts, and a statement may even
run over several lines; still the reader finds every row and every field again.  One field is a list
in itself, the imported items joined by semicolons.  It can be taken apart because of what a
statement may import: an item is a star or an identifier, so it is not empty and holds no semicolon.

Main definitions:

* `ModuleDeps.Report.itemsOfField` — the items that a field of the table lists.

Main results:

* `ModuleDeps.Import.item_of_mem_parse` — the items of a record are stars and identifiers;
* `ModuleDeps.AnalysisConfig.exists_process_of_mem_records` — every record of an analysis is one of
  a statement;
* `ModuleDeps.Report.itemsOfField_intercalate` — joined items are found again;
* `ModuleDeps.Report.read?_csvText` — **the table of some reports is read back**.
-/

import ModuleDeps.Proofs.CsvReading
import ModuleDeps.Proofs.GraphImage
import ModuleDeps.Proofs.ImportReading
import ModuleDeps.Report.Format

set_option relaxedAutoImplicit false
set_option autoImplicit false

namespace ModuleDeps

/-! ### Items -/

namespace Import

theorem Item.star_or_ident {text : List Char} {x : String} (h : Item text x) :
    x = "*" ∨ Ident x.toList := by
  cases h with
  | star _ _ => exact Or.inl rfl
  | name h => exact Or.inr h.name

theorem ItemList.star_or_ident {text : List Char} {names : List String} (h : ItemList text names) :
    ∀ x ∈ names, x = "*" ∨ Ident x.toList := by
  cases h with
  | bare h => exact h.forall_mem fun _ _ hitem => hitem.star_or_ident
  | parens h => exact h.forall_mem fun _ _ hitem => hitem.star_or_ident
  | trailing h _ => exact h.forall_mem fun _ _ hitem => hitem.star_or_ident

theorem Derives.star_or_ident {cs : List Char} {s : Statement} (h : Derives cs s)
    {source text : String} {r : ImportRecord} (hr : r ∈ s.records source text) :
    ∀ x ∈ r.items, x = "*" ∨ Ident x.toList := by
  cases h with
  | modules _ _ =>
      obtain ⟨path, -, rfl⟩ := List.mem_map.1 hr
      intro x hx
      cases hx
  | items _ _ _ _ hlist =>
      obtain rfl := List.mem_singleton.1 hr
      exact hlist.star_or_ident

/-- What a record imports from its module are stars and identifiers. -/
theorem item_of_mem_parse {statement source : String} {r : ImportRecord}
    (hr : r ∈ parse statement source) : ∀ x ∈ r.items, x = "*" ∨ Ident x.toList := by
  obtain ⟨s, hs⟩ := exists_derives_of_parse_ne_nil (List.ne_nil_of_mem hr)
  rw [parse_of_derives source hs] at hr
  exact hs.star_or_ident hr

/-- Neither a star nor an identifier is empty or holds a semicolon. -/
theorem semicolon_notMem {x : String} (h : x = "*" ∨ Ident x.toList) :
    x.toList ≠ [] ∧ ';' ∉ x.toList := by
  rcases h with rfl | h
  · decide
  · exact ⟨h.ne_nil, h.notMem (by decide)⟩

end Import

/-! ### The records of an analysis -/

namespace AnalysisConfig

/-- Modules append nothing but their own records. -/
theorem mem_records_addModules {b : Builder} {modules : List SourceModule} {r : ImportRecord}
    (h : r ∈ (addModules b modules).1.records) :
    r ∈ b.records ∨ ∃ m ∈ modules, r ∈ b.recordsOf m := by
  induction modules generalizing b with
  | nil => exact Or.inl h
  | cons m ms ih =>
      rw [addModules] at h
      cases hflaw : m.flaw? with
      | some flaw =>
          rw [hflaw] at h
          exact Or.inl h
      | none =>
          rw [hflaw] at h
          rcases ih h with h | ⟨m', hm', h⟩
          · rw [Builder.records_addModule] at h
            rcases List.mem_append.1 h with h | h
            · exact Or.inl h
            · exact Or.inr ⟨m, List.mem_cons_self, h⟩
          · rw [Builder.recordsOf, Builder.project_addModule] at h
            exact Or.inr ⟨m', List.mem_cons_of_mem _ hm', h⟩

theorem records_analyzeSelected (config : AnalysisConfig) (modules : List SourceModule)
    (warnings : List String) :
    (config.analyzeSelected modules warnings).records =
      (addModules (.start (.ofModules ⟨config.extraStdlib⟩ modules)) modules).1.records := by
  rw [analyzeSelected]
  rcases addModules (.start (.ofModules ⟨config.extraStdlib⟩ modules)) modules with
    ⟨b, fault | _⟩
  · rfl
  · rfl

/-- Every record of an analysis is one of a statement. -/
theorem exists_process_of_mem_records {config : AnalysisConfig} {modules : List SourceModule}
    {r : ImportRecord} (h : r ∈ (config.analyze modules).records) :
    ∃ (project : Project) (statement source : String), r ∈ project.process statement source := by
  rw [analyze] at h
  cases hpatterns : config.patterns with
  | error flaw =>
      rw [hpatterns] at h
      cases h
  | ok globs =>
      simp only [hpatterns, records_analyzeSelected] at h
      rcases mem_records_addModules h with h | ⟨m, -, h⟩
      · cases h
      · obtain ⟨statement, -, h⟩ := List.mem_flatMap.1 h
        exact ⟨_, statement, m.name, h⟩

end AnalysisConfig

/-! ### Rows -/

namespace Report

/-- The items that a field of the table lists: what stands between its semicolons, and none if it is
empty. -/
def itemsOfField (field : String) : List String :=
  if field.toList = [] then [] else (Text.cutAt ';' field.toList).map String.ofList

/-- Items that are not empty and hold no semicolon are found again in the field that joins them. -/
theorem itemsOfField_intercalate {items : List String}
    (h : ∀ x ∈ items, x.toList ≠ [] ∧ ';' ∉ x.toList) :
    itemsOfField (";".intercalate items) = items := by
  have hfield : (";".intercalate items).toList = Text.glue ';' (items.map String.toList) :=
    String.toList_intercalate
  rw [itemsOfField, hfield]
  cases items with
  | nil => rfl
  | cons x xs =>
      have hx := (h x List.mem_cons_self).1
      have hne : Text.glue ';' ((x :: xs).map String.toList) ≠ [] := by
        obtain ⟨rest, hrest⟩ := Text.exists_glue_cons ';' x.toList (xs.map String.toList)
        rw [List.map_cons, hrest]
        exact fun hnil => hx (List.append_eq_nil_iff.1 hnil).1
      have hcut : Text.cutAt ';' (Text.glue ';' ((x :: xs).map String.toList)) =
          (x :: xs).map String.toList := by
        refine Text.cutAt_glue (by simp) fun piece hpiece => ?_
        obtain ⟨y, hy, rfl⟩ := List.mem_map.1 hpiece
        exact (h y hy).2
      rw [if_neg hne, hcut, List.map_map]
      simp [Function.comp_def]

/-- No row of the table is without a field. -/
theorem ne_nil_of_mem_csvRows {rs : List Report} :
    ∀ fields ∈ csvHeader :: csvRows rs, fields ≠ [] := by
  intro fields hfields
  rcases List.mem_cons.1 hfields with rfl | hfields
  · exact List.cons_ne_nil _ _
  · obtain ⟨report, -, hfields⟩ := List.mem_flatMap.1 hfields
    obtain ⟨record, -, rfl⟩ := List.mem_map.1 hfields
    exact List.cons_ne_nil _ _

/-- **The table of some reports is read back.**  Whatever the reports hold, a reader finds the names
of the eight columns and then a row for each record, report after report and record after record,
with these eight fields.  The items of a record of an analysis are found in the field that lists
them. -/
theorem read?_csvText (rs : List Report) :
    Csv.read? (csvText rs) = some
      (["input", "source_module", "name", "target", "dependency_type", "import_type",
          "imported_items", "import_statement"] ::
        rs.flatMap fun report => report.result.records.map fun r =>
          [report.input, r.source, r.name, r.target, r.kind.text, r.form.text,
            ";".intercalate r.items, r.statement]) ∧
    ∀ (config : AnalysisConfig) (modules : List SourceModule),
      ∀ r ∈ (config.analyze modules).records, itemsOfField (";".intercalate r.items) = r.items := by
  refine ⟨Csv.read?_table ne_nil_of_mem_csvRows, fun config modules r hr => ?_⟩
  obtain ⟨project, statement, source, hr⟩ := AnalysisConfig.exists_process_of_mem_records hr
  obtain ⟨parsed, hparsed, rfl⟩ := List.mem_map.1 hr
  exact itemsOfField_intercalate fun x hx =>
    Import.semicolon_notMem (Import.item_of_mem_parse hparsed x hx)

/-- A statement over two lines, with a comma in it, is one field of one row, and its two items are
found again. -/
theorem read?_csvText_two_lines :
    let statement := "from os import (path,\n  sep as s)"
    let r : ImportRecord := ⟨"os", .stdlib, .fromImport, "a", statement, none, ["path", "sep"]⟩
    let result := AnalysisConfig.default.analyze [⟨"a", "", [statement]⟩]
    result.records = [r] ∧ itemsOfField "path;sep" = ["path", "sep"] ∧
    Csv.read? (csvText [⟨"in.json", 1, "", result⟩]) = some
      [["input", "source_module", "name", "target", "dependency_type", "import_type",
          "imported_items", "import_statement"],
        ["in.json", "a", "os", "os", "stdlib", "from_import", "path;sep", statement]] := by
  intro statement r result
  have hrecords : result.records = [r] := by
    decide +kernel
  obtain ⟨hread, hitems⟩ := read?_csvText [⟨"in.json", 1, "", result⟩]
  refine ⟨hrecords, hitems .default [⟨"a", "", [statement]⟩] r ?_, ?_⟩
  · exact hrecords ▸ List.mem_singleton_self r
  · rw [hread, List.flatMap_cons, hrecords]
    rfl

end Report

end ModuleDeps
