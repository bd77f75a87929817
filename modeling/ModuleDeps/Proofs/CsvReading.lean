/-
Reading tables in CSV.

A reader goes through a text character by character.  It stands at the start of a row or of a field,
inside a bare field, inside quotes, or behind a quote that may close a field or be the first of two.
Inside quotes every other character belongs to the field, commas and line breaks too; a bare field
holds no quote.  A row ends with a line feed, with a carriage return, or with both; the last one may
end with the text.

What the writer makes of a table is read back as the same table, whatever its fields hold.  The
argument follows the writer: a field is read as it is, a comma or a line feed then ends it, and so a
row and a table are read.

Main definitions:

* `ModuleDeps.Csv.Reading`, `ModuleDeps.Csv.Reading.step` — what has been read so far, and one
  character more;
* `ModuleDeps.Csv.read?` — the table that a text holds, if it is one.

Main results:

* `ModuleDeps.Csv.Reading.run_field` — what has been written for a field is read as this field;
* `ModuleDeps.Csv.Reading.run_row` — and a row as this row;
* `ModuleDeps.Csv.read?_table` — **a written table is read back**.
-/

import ModuleDeps.Csv
import ModuleDeps.Text.Pieces

set_option relaxedAutoImplicit false
set_option autoImplicit false

namespace ModuleDeps.Csv

/-! ### The reader -/

/-- Where a reader stands. -/
inductive Place where
  /-- At the start of a row. -/
  | rowStart
  /-- Behind a carriage return that has ended a row. -/
  | afterReturn
  /-- Behind a comma. -/
  | fieldStart
  /-- In a field without quotes. -/
  | bare
  /-- In a field with quotes. -/
  | quoted
  /-- Behind a quote in a field with quotes. -/
  | closed
  deriving DecidableEq, Repr

/-- What has been read; the lists have what came last in front. -/
structure Reading where
  place : Place
  /-- The characters of the field. -/
  field : List Char
  /-- The fields of the row that are complete. -/
  fields : List String
  /-- The rows that are complete. -/
  rows : List (List String)
  deriving DecidableEq, Repr

namespace Reading

/-- Nothing has been read. -/
def start : Reading := ⟨.rowStart, [], [], []⟩

/-- One more character of the field. -/
def push (r : Reading) (place : Place) (c : Char) : Reading :=
  { r with place := place, field := c :: r.field }

/-- The field is complete. -/
def endField (r : Reading) : Reading :=
  { r with place := .fieldStart, field := [], fields := String.ofList r.field.reverse :: r.fields }

/-- The field is complete, and the row too. -/
def endRow (r : Reading) (place : Place) : Reading where
  place := place
  field := []
  fields := []
  rows := r.endField.fields.reverse :: r.rows

/-- A comma or a line break ends the field; no other character does. -/
def separate (r : Reading) (c : Char) : Option Reading :=
  if c = ',' then some r.endField
  else if c = '\n' then some (r.endRow .rowStart)
  else if c = '\r' then some (r.endRow .afterReturn)
  else none

/-- The first character of a field, or what ends an empty one. -/
def enter (r : Reading) (c : Char) : Option Reading :=
  if c = '"' then some { r with place := .quoted }
  else (r.separate c).or (some (r.push .bare c))

/-- One more character; none if the text is no table. -/
def step (r : Reading) (c : Char) : Option Reading :=
  match r.place with
  | .rowStart => r.enter c
  | .fieldStart => r.enter c
  | .afterReturn => if c = '\n' then some { r with place := .rowStart } else r.enter c
  | .bare => if c = '"' then none else (r.separate c).or (some (r.push .bare c))
  | .quoted => some (if c = '"' then { r with place := .closed } else r.push .quoted c)
  | .closed => if c = '"' then some (r.push .quoted c) else r.separate c

/-- The characters of a text, one after the other. -/
def run (r : Reading) (cs : List Char) : Option Reading :=
  cs.foldlM step r

/-- The table at the end of the text; none if quotes are still open. -/
def finish (r : Reading) : Option (List (List String)) :=
  match r.place with
  | .rowStart => some r.rows.reverse
  | .afterReturn => some r.rows.reverse
  | .quoted => none
  | .fieldStart => some (r.endRow .rowStart).rows.reverse
  | .bare => some (r.endRow .rowStart).rows.reverse
  | .closed => some (r.endRow .rowStart).rows.reverse

end Reading

/-- The rows of the table that a text holds, if it holds one. -/
def read? (text : String) : Option (List (List String)) :=
  (Reading.start.run text.toList).bind Reading.finish

namespace Reading

theorem run_cons {r next : Reading} {c : Char} (h : r.step c = some next) (cs : List Char) :
    r.run (c :: cs) = next.run cs := by
  rw [run, List.foldlM_cons, h]
  rfl

theorem run_append {r next : Reading} {cs : List Char} (h : r.run cs = some next)
    (rest : List Char) : r.run (cs ++ rest) = next.run rest := by
  rw [run] at h
  rw [run, List.foldlM_append, h]
  rfl

/-! ### Fields -/

/-- May a separator follow here, and end the field? -/
def MayEnd : Place → Prop
  | .quoted => False
  | .afterReturn => False
  | _ => True

theorem step_of_separate {r next : Reading} {c : Char} (h : MayEnd r.place) (hquote : c ≠ '"')
    (hnext : r.separate c = some next) : r.step c = some next := by
  have henter : r.enter c = some next := by
    rw [enter, if_neg hquote, hnext, Option.some_or]
  rw [step]
  cases hplace : r.place with
  | rowStart => exact henter
  | fieldStart => exact henter
  | bare => simp only [hquote, if_false, hnext, Option.some_or]
  | closed => simp only [hquote, if_false, hnext]
  | quoted =>
      rw [hplace] at h
      exact h.elim
  | afterReturn =>
      rw [hplace] at h
      exact h.elim

theorem step_comma {r : Reading} (h : MayEnd r.place) : r.step ',' = some r.endField :=
  step_of_separate h (by decide) rfl

theorem step_lineFeed {r : Reading} (h : MayEnd r.place) :
    r.step '\n' = some (r.endRow .rowStart) :=
  step_of_separate h (by decide) rfl

theorem separate_of_not_isSpecial (r : Reading) {c : Char} (h : isSpecial c = false) :
    r.separate c = none ∧ c ≠ '"' := by
  simp only [isSpecial, Bool.or_eq_false_iff, beq_eq_false_iff_ne] at h
  obtain ⟨⟨⟨hcomma, hquote⟩, hreturn⟩, hfeed⟩ := h
  rw [separate, if_neg hcomma, if_neg hfeed, if_neg hreturn]
  exact ⟨rfl, hquote⟩

/-- Characters that need no quotes are read one by one. -/
theorem run_bare {cs : List Char} (hcs : ∀ c ∈ cs, isSpecial c = false) (r : Reading)
    (h : r.place = .bare) : r.run cs = some { r with field := cs.reverse ++ r.field } := by
  induction cs generalizing r with
  | nil => rfl
  | cons c cs ih =>
      obtain ⟨hseparate, hquote⟩ := r.separate_of_not_isSpecial (hcs c List.mem_cons_self)
      have hstep : r.step c = some (r.push .bare c) := by
        rw [step, h]
        simp only [hquote, if_false, hseparate, Option.none_or]
      rw [run_cons hstep, ih (fun x hx => hcs x (List.mem_cons_of_mem _ hx)) _ rfl]
      simp [push, h]

/-- Inside quotes every character is read as itself, and two quotes as one. -/
theorem run_escaped (cs : List Char) (r : Reading) (h : r.place = .quoted) :
    r.run (cs.flatMap escapeChar) = some { r with field := cs.reverse ++ r.field } := by
  induction cs generalizing r with
  | nil => rfl
  | cons c cs ih =>
      -- after the character, or its two quotes, the reader stands inside the quotes again
      have hchar : r.run (escapeChar c) = some (r.push .quoted c) := by
        rw [escapeChar]
        by_cases hc : c = '"'
        · have hfirst : r.step '"' = some { r with place := .closed } := by
            rw [step, h]
            rfl
          rw [if_pos hc, run_cons hfirst, hc]
          rfl
        · rw [if_neg hc]
          refine run_cons ?_ []
          rw [step, h]
          simp only [hc, if_false]
      rw [List.flatMap_cons, run_append hchar, ih _ rfl]
      simp [push, h]

section FieldStart

variable {r : Reading} (hplace : r.place = .rowStart ∨ r.place = .fieldStart)
include hplace

theorem mayEnd_of_fieldStart : MayEnd r.place := by
  rcases hplace with h | h
  · rw [h]
    trivial
  · rw [h]
    trivial

theorem step_of_fieldStart (c : Char) : r.step c = r.enter c := by
  rcases hplace with h | h
  · rw [step, h]
  · rw [step, h]

theorem run_quotedField (cs : List Char) (hfield : r.field = []) :
    r.run ('"' :: cs.flatMap escapeChar ++ ['"']) =
      some { r with place := .closed, field := cs.reverse } := by
  have hopen : r.step '"' = some { r with place := .quoted } := by
    rw [step_of_fieldStart hplace]
    rfl
  rw [List.cons_append, run_cons hopen, run_append (run_escaped cs _ rfl)]
  refine run_cons ?_ []
  simp [step, hfield]

theorem run_bareField {c : Char} {cs : List Char} (hcs : ∀ x ∈ c :: cs, isSpecial x = false)
    (hfield : r.field = []) :
    r.run (c :: cs) = some { r with place := .bare, field := (c :: cs).reverse } := by
  obtain ⟨hseparate, hquote⟩ := r.separate_of_not_isSpecial (hcs c List.mem_cons_self)
  have hfirst : r.step c = some (r.push .bare c) := by
    rw [step_of_fieldStart hplace, enter, if_neg hquote, hseparate, Option.none_or]
  rw [run_cons hfirst, run_bare (fun x hx => hcs x (List.mem_cons_of_mem _ hx)) _ rfl]
  simp [push, hfield]

/-- What has been written for a field is read as this field, and a separator may follow. -/
theorem run_field (text : String) (hfield : r.field = []) :
    ∃ place, MayEnd place ∧
      r.run (Csv.field text) = some { r with place := place, field := text.toList.reverse } := by
  rw [Csv.field]
  by_cases hspecial : text.toList.any isSpecial = true
  · rw [if_pos hspecial]
    exact ⟨.closed, trivial, run_quotedField hplace _ hfield⟩
  · rw [if_neg hspecial]
    rw [Bool.not_eq_true, List.any_eq_false] at hspecial
    cases hcs : text.toList with
    | nil =>
        -- nothing is written, and the reader stays where it is
        refine ⟨r.place, mayEnd_of_fieldStart hplace, congrArg some ?_⟩
        cases r
        cases hfield
        rfl
    | cons c cs =>
        rw [hcs] at hspecial
        have hplain : ∀ x ∈ c :: cs, isSpecial x = false := by
          intro x hx
          rw [← Bool.not_eq_true]
          exact hspecial x hx
        exact ⟨.bare, trivial, run_bareField hplace hplain hfield⟩

end FieldStart

/-! ### Rows and tables -/

/-- What has been written for the fields of a row is read as these fields, behind those that the row
has already. -/
theorem run_fields {fields : List String} (hne : fields ≠ []) (r : Reading)
    (hplace : r.place = .rowStart ∨ r.place = .fieldStart) (hfield : r.field = []) :
    r.run (Text.glue ',' (fields.map Csv.field) ++ ['\n']) =
      some ⟨.rowStart, [], [], (r.fields.reverse ++ fields) :: r.rows⟩ := by
  induction fields generalizing r with
  | nil => exact absurd rfl hne
  | cons text fields ih =>
      obtain ⟨place, hend, hrun⟩ := run_field hplace text hfield
      by_cases hfields : fields = []
      · subst hfields
        rw [List.map_cons, List.map_nil, Text.glue_singleton, run_append hrun,
          run_cons (step_lineFeed hend)]
        simp [run, endRow, endField]
      · have hmap : fields.map Csv.field ≠ [] := by simpa using hfields
        rw [List.map_cons, Text.glue_cons _ _ hmap, List.append_assoc, run_append hrun,
          List.cons_append, run_cons (step_comma hend), ih hfields _ (Or.inr rfl) rfl]
        simp [endField]

/-- What has been written for a row is read as this row. -/
theorem run_row {fields : List String} (hne : fields ≠ []) (rows : List (List String)) :
    run ⟨.rowStart, [], [], rows⟩ (Csv.row fields) =
      some ⟨.rowStart, [], [], fields :: rows⟩ :=
  run_fields hne _ (Or.inl rfl) rfl

theorem run_rows {table : List (List String)} (hne : ∀ fields ∈ table, fields ≠ [])
    (rows : List (List String)) :
    run ⟨.rowStart, [], [], rows⟩ (table.flatMap Csv.row) =
      some ⟨.rowStart, [], [], table.reverse ++ rows⟩ := by
  induction table generalizing rows with
  | nil => rfl
  | cons fields table ih =>
      rw [List.flatMap_cons, run_append (run_row (hne fields List.mem_cons_self) rows),
        ih fun x hx => hne x (List.mem_cons_of_mem _ hx)]
      simp

end Reading

/-- **A written table is read back**, whatever its fields hold, if no row is without a field. -/
theorem read?_table {rows : List (List String)} (hne : ∀ fields ∈ rows, fields ≠ []) :
    read? (table rows) = some rows := by
  rw [read?, table, String.toList_ofList, Reading.start, Reading.run_rows hne]
  simp [Reading.finish]

/-- A comma, a quote and a line break inside quotes belong to the field, and both sorts of line
breaks end a row. -/
example : read? "a,\"b,\"\"\n\"\r\n,c" = some [["a", "b,\"\n"], ["", "c"]] := by decide

/-- A quote does not stand in a bare field, and nothing stands behind a closing one. -/
example : read? "a\"b" = none ∧ read? "\"a\"b" = none ∧ read? "\"a" = none := by decide

end ModuleDeps.Csv
