/-
Colours leave the content of reports as it is.

A reader without colours drops every control sequence: the escape character, an opening bracket, any
codes and the letter `m`.  What is written in a report may have brackets, digits and this letter
anywhere, but control sequences start with the escape character.  Where a report has none in its own
texts, those that colours bring are all that is dropped.

The argument is about texts and not about sections.  A text is a coloured form of another one if the
reader, whatever comes behind it, sees the other one.  This is kept when texts are put behind each
other, and holds for spans; so it is left to show that no section writes the escape character, and
for this it is enough to know the names from which the sections take theirs.

Main definitions:

* `ModuleDeps.Span.withoutColors` — a text without its control sequences;
* `ModuleDeps.Span.IsColoring` — a text is a coloured form of another one;
* `ModuleDeps.HasNoEscape` — a text is without the escape character;
* `ModuleDeps.Report.IsClean` — the texts in a report are.

Main results:

* `ModuleDeps.Span.isColoring_render` — spans with colours are a coloured form of those without;
* `ModuleDeps.Report.allFree_textSpans` — a clean report is written without the escape character;
* `ModuleDeps.Report.colors_keep_content` — **colours leave the content as it is**.
-/

import Mathlib
import ModuleDeps.Proofs.Tallies
import ModuleDeps.Report.Format

set_option relaxedAutoImplicit false
set_option autoImplicit false

namespace ModuleDeps

/-- What is kept when texts are put behind each other is kept when they are put behind each other
with a text between them. -/
theorem rel_intercalate {R : String → String → Prop} (hempty : R "" "")
    (happend : ∀ {a b a' b'}, R a b → R a' b' → R (a ++ a') (b ++ b')) {between : String}
    (hbetween : R between between) {α : Type} {items : List α} {f g : α → String}
    (h : ∀ a ∈ items, R (f a) (g a)) :
    R (between.intercalate (items.map f)) (between.intercalate (items.map g)) := by
  induction items with
  | nil => exact hempty
  | cons a items ih =>
      obtain ⟨ha, hitems⟩ := List.forall_mem_cons.1 h
      cases items with
      | nil => simpa only [List.map_cons, List.map_nil, String.intercalate_singleton] using ha
      | cons b items =>
          simp only [List.map_cons, String.intercalate_cons_cons] at ih ⊢
          exact happend (happend ha hbetween) (ih hitems)

/-! ### Reading without colours -/

/-- The text is without the escape character. -/
def HasNoEscape (text : String) : Prop :=
  Span.escapeCharacter ∉ text.toList

instance (text : String) : Decidable (HasNoEscape text) :=
  inferInstanceAs (Decidable (Span.escapeCharacter ∉ text.toList))

namespace Span

/-- May the character stand among the codes of a control sequence? -/
def isCode (c : Char) : Bool :=
  c.isDigit || c == ';'

/-- What comes behind codes and the letter that ends them. -/
def afterCodes? : List Char → Option (List Char)
  | [] => none
  | c :: rest => if c = 'm' then some rest else if isCode c then afterCodes? rest else none

/-- What comes behind a control sequence, if the text starts with one. -/
def afterControl? : List Char → Option (List Char)
  | c :: d :: rest => if c = escapeCharacter ∧ d = '[' then afterCodes? rest else none
  | _ => none

theorem length_of_afterCodes? {cs rest : List Char} (h : afterCodes? cs = some rest) :
    rest.length < cs.length := by
  induction cs with
  | nil => cases h
  | cons c cs ih =>
      rw [afterCodes?] at h
      split_ifs at h with hend hcode
      · cases h
        exact Nat.lt_succ_self _
      · exact Nat.lt_succ_of_lt (ih h)

theorem length_of_afterControl? {cs rest : List Char} (h : afterControl? cs = some rest) :
    rest.length < cs.length := by
  cases cs with
  | nil => cases h
  | cons c cs =>
      cases cs with
      | nil => cases h
      | cons d cs =>
          rw [afterControl?] at h
          split_ifs at h
          exact Nat.lt_succ_of_lt (Nat.lt_succ_of_lt (length_of_afterCodes? h))

/-- The characters without control sequences. -/
def withoutControls : List Char → List Char
  | [] => []
  | c :: cs =>
    match _ : afterControl? (c :: cs) with
    | some rest => withoutControls rest
    | none => c :: withoutControls cs
  termination_by cs => cs.length
  decreasing_by
  · exact length_of_afterControl? ‹_›
  · exact Nat.lt_succ_self _

/-- A text without its control sequences. -/
def withoutColors (text : String) : String :=
  String.ofList (withoutControls text.toList)

theorem withoutControls_of_some {c : Char} {cs rest : List Char}
    (h : afterControl? (c :: cs) = some rest) :
    withoutControls (c :: cs) = withoutControls rest := by
  rw [withoutControls]
  split
  · next rest' h' => rw [Option.some.inj (h.symm.trans h')]
  · next h' => cases h.symm.trans h'

theorem withoutControls_of_ne {c : Char} (h : c ≠ escapeCharacter) (cs : List Char) :
    withoutControls (c :: cs) = c :: withoutControls cs := by
  have hnone : afterControl? (c :: cs) = none := by
    cases cs with
    | nil => rfl
    | cons d cs => rw [afterControl?, if_neg fun hstart => h hstart.1]
  rw [withoutControls]
  split
  · next h' => cases hnone.symm.trans h'
  · rfl

/-- Characters among which the escape character is not are left as they are. -/
theorem withoutControls_append {cs : List Char} (h : escapeCharacter ∉ cs) (rest : List Char) :
    withoutControls (cs ++ rest) = cs ++ withoutControls rest := by
  induction cs with
  | nil => rfl
  | cons c cs ih =>
      rw [List.mem_cons, not_or] at h
      rw [List.cons_append, withoutControls_of_ne (Ne.symm h.1), ih h.2, List.cons_append]

theorem afterCodes?_append {codes : List Char} (h : codes.all isCode = true)
    (rest : List Char) : afterCodes? (codes ++ 'm' :: rest) = some rest := by
  induction codes with
  | nil => rfl
  | cons c codes ih =>
      rw [List.all_cons, Bool.and_eq_true] at h
      obtain ⟨hc, hcodes⟩ := h
      have hm : c ≠ 'm' := by
        rintro rfl
        cases hc
      rw [List.cons_append, afterCodes?, if_neg hm, if_pos hc, ih hcodes]

/-- A control sequence is dropped. -/
theorem withoutControls_control {codes : String} (h : codes.toList.all isCode = true)
    (rest : List Char) : withoutControls (control codes ++ rest) = withoutControls rest := by
  have hcontrol : control codes ++ rest =
      escapeCharacter :: '[' :: (codes.toList ++ 'm' :: rest) := by simp [control]
  rw [hcontrol]
  refine withoutControls_of_some ?_
  rw [afterControl?, if_pos ⟨rfl, rfl⟩, afterCodes?_append h]

theorem all_isCode_codes (style : Style) : style.codes.toList.all isCode = true := by
  cases style <;> rfl

/-! ### Coloured forms -/

/-- A text is a coloured form of a plain one: whatever comes behind it, without control sequences it
is the plain one. -/
def IsColoring (plain colored : String) : Prop :=
  ∀ rest, withoutControls (colored.toList ++ rest) = plain.toList ++ withoutControls rest

theorem IsColoring.withoutColors {plain colored : String} (h : IsColoring plain colored) :
    withoutColors colored = plain := by
  have hall := h []
  rw [List.append_nil, withoutControls, List.append_nil] at hall
  rw [Span.withoutColors, hall, String.ofList_toList]

theorem isColoring_self {text : String} (h : HasNoEscape text) : IsColoring text text :=
  withoutControls_append h

theorem IsColoring.append {plain colored plain' colored' : String} (h : IsColoring plain colored)
    (h' : IsColoring plain' colored') : IsColoring (plain ++ plain') (colored ++ colored') := by
  intro rest
  rw [String.toList_append, String.toList_append, List.append_assoc, h, h', List.append_assoc]

/-- No span of the list has the escape character in its text. -/
def AllFree (spans : List Span) : Prop :=
  ∀ span ∈ spans, HasNoEscape span.text

theorem withoutControls_chars {span : Span} (h : HasNoEscape span.text) (rest : List Char) :
    withoutControls (chars true span ++ rest) = chars false span ++ withoutControls rest := by
  obtain ⟨style?, text⟩ := span
  cases style? with
  | none => exact withoutControls_append h rest
  | some style =>
      have hreset : "0".toList.all isCode = true := rfl
      rw [chars, chars]
      simp only [if_true, List.append_assoc, Bool.false_eq_true, if_false]
      rw [withoutControls_control (all_isCode_codes style), withoutControls_append h,
        withoutControls_control hreset]

/-- Spans with colours are a coloured form of those without. -/
theorem isColoring_render {spans : List Span} (h : AllFree spans) :
    IsColoring (render false spans) (render true spans) := by
  intro rest
  rw [render, render, String.toList_ofList, String.toList_ofList]
  induction spans with
  | nil => rfl
  | cons span spans ih =>
      obtain ⟨hspan, hspans⟩ := List.forall_mem_cons.1 h
      rw [List.flatMap_cons, List.flatMap_cons, List.append_assoc, withoutControls_chars hspan,
        ih hspans, List.append_assoc]

theorem isColoring_empty : IsColoring "" "" := fun _ => rfl

theorem isColoring_join {α : Type} {items : List α} {plain colored : α → String}
    (h : ∀ a ∈ items, IsColoring (plain a) (colored a)) :
    IsColoring (String.join (items.map plain)) (String.join (items.map colored)) := by
  induction items with
  | nil => exact isColoring_empty
  | cons a items ih =>
      obtain ⟨ha, hitems⟩ := List.forall_mem_cons.1 h
      rw [List.map_cons, List.map_cons, String.join_cons, String.join_cons]
      exact ha.append (ih hitems)

/-- Spans in which the escape character is not are written without it, if there are no colours. -/
theorem hasNoEscape_render {spans : List Span} (h : AllFree spans) :
    HasNoEscape (render false spans) := by
  rw [HasNoEscape, render, String.toList_ofList, List.mem_flatMap]
  rintro ⟨⟨style?, text⟩, hspan, hmem⟩
  cases style? with
  | none => exact h _ hspan hmem
  | some style => exact h _ hspan hmem

/-- With colours there is an escape character as soon as a span has a style. -/
theorem hasNoEscape_render_true_iff {spans : List Span} (h : AllFree spans) :
    HasNoEscape (render true spans) ↔ ∀ span ∈ spans, span.style = none := by
  rw [HasNoEscape, render, String.toList_ofList, List.mem_flatMap]
  constructor
  · rintro hnone ⟨style?, text⟩ hspan
    cases style? with
    | none => rfl
    | some style => exact absurd ⟨_, hspan, List.mem_cons_self⟩ hnone
  · rintro hplain ⟨⟨style?, text⟩, hspan, hmem⟩
    obtain rfl : style? = none := hplain _ hspan
    exact h _ hspan hmem

/-! ### Spans without the escape character -/

@[simp] theorem allFree_nil : AllFree [] := by simp [AllFree]

@[simp] theorem allFree_cons {span : Span} {spans : List Span} :
    AllFree (span :: spans) ↔ HasNoEscape span.text ∧ AllFree spans :=
  List.forall_mem_cons

@[simp] theorem allFree_append {spans spans' : List Span} :
    AllFree (spans ++ spans') ↔ AllFree spans ∧ AllFree spans' :=
  List.forall_mem_append

@[simp] theorem allFree_ite {p : Prop} [Decidable p] {spans spans' : List Span} :
    AllFree (if p then spans else spans') ↔ (p → AllFree spans) ∧ (¬p → AllFree spans') := by
  by_cases hp : p
  · simp [hp]
  · simp [hp]

@[simp] theorem allFree_map {α : Type} {items : List α} {f : α → Span} :
    AllFree (items.map f) ↔ ∀ a ∈ items, HasNoEscape (f a).text :=
  List.forall_mem_map

@[simp] theorem allFree_flatMap {α : Type} {items : List α} {f : α → List Span} :
    AllFree (items.flatMap f) ↔ ∀ a ∈ items, AllFree (f a) :=
  List.forall_mem_flatMap

@[simp] theorem text_plain (text : String) : (plain text).text = text := rfl

@[simp] theorem text_styled (style : Style) (text : String) : (styled style text).text = text := rfl

end Span

/-! ### Texts without the escape character -/

@[simp] theorem hasNoEscape_append {a b : String} :
    HasNoEscape (a ++ b) ↔ HasNoEscape a ∧ HasNoEscape b := by
  rw [HasNoEscape, String.toList_append, List.mem_append, not_or]
  rfl

@[simp] theorem hasNoEscape_toString {text : String} :
    HasNoEscape (toString text) ↔ HasNoEscape text :=
  Iff.rfl

theorem notMem_digits (n : Nat) : Span.escapeCharacter ∉ Nat.toDigits 10 n := by
  intro h
  have hdigit := Nat.isDigit_of_mem_toDigits (by decide) (by decide) h
  cases hdigit

@[simp] theorem hasNoEscape_repr (n : Nat) : HasNoEscape n.repr := by
  rw [HasNoEscape, Nat.repr, String.toList_ofList]
  exact notMem_digits n

theorem hasNoEscape_join {texts : List String} :
    HasNoEscape (String.join texts) ↔ ∀ text ∈ texts, HasNoEscape text := by
  induction texts with
  | nil => exact iff_of_true (by decide) (by simp)
  | cons text texts ih => rw [String.join_cons, hasNoEscape_append, ih, List.forall_mem_cons]

theorem hasNoEscape_intercalate {between : String} {texts : List String}
    (hbetween : HasNoEscape between) :
    HasNoEscape (between.intercalate texts) ↔ ∀ text ∈ texts, HasNoEscape text := by
  induction texts with
  | nil =>
      rw [String.intercalate_nil]
      exact iff_of_true (by decide) (by simp)
  | cons text texts ih =>
      cases texts with
      | nil => rw [String.intercalate_singleton, List.forall_mem_singleton]
      | cons next texts =>
          rw [String.intercalate_cons_cons, hasNoEscape_append, hasNoEscape_append, ih,
            List.forall_mem_cons (a := text)]
          simp only [hbetween, and_true]

/-- A number with a fixed number of places is digits, a point and a sign, or a word. -/
@[simp] theorem hasNoEscape_fixed (places : Nat) (x : Float) :
    HasNoEscape (Decimal.fixed places x) := by
  have hsign : ∀ negative, Span.escapeCharacter ∉ Decimal.sign negative := by decide
  have hpoint : ∀ n, Span.escapeCharacter ∉ Decimal.withPoint places n := by
    intro n
    have hzero : Span.escapeCharacter ≠ '.' ∧ Span.escapeCharacter ≠ '0' := by decide
    simp [Decimal.withPoint, Decimal.digits, notMem_digits, hzero]
  have hword : Span.escapeCharacter ∉ Decimal.notFinite x := by
    have hletters : Span.escapeCharacter ∉ ['i', 'n', 'f'] ∧
        Span.escapeCharacter ∉ ['N', 'a', 'N'] := by decide
    rw [Decimal.notFinite]
    split
    · exact fun h => (List.mem_append.1 h).elim (hsign _) hletters.1
    · exact hletters.2
  rw [HasNoEscape, Decimal.fixed, String.toList_ofList]
  split
  · exact fun h => (List.mem_append.1 h).elim (hsign _) (hpoint _)
  · exact hword

/-! ### Sections -/

/-- A name that is listed with the number of its occurrences occurs. -/
theorem Graph.mem_of_mem_take_tally {names : List String} {n count : Nat} {name : String}
    (h : (name, count) ∈ ((tally names).entries.mergeSort countOrder).take n) : name ∈ names := by
  have hentry := List.mem_mergeSort.1 (List.mem_of_mem_take h)
  exact mem_names_tally_iff.1 (List.mem_map_of_mem hentry)

/-- The names of a group have edges. -/
theorem EdgeMap.mem_keys_of_mem_groups {edges : EdgeMap} {group : List String}
    (h : group ∈ edges.groups) {x : String} (hx : x ∈ group) : x ∈ edges.keys := by
  obtain ⟨y, -, hmem⟩ := exists_mem_iff_of_mem_groups h
  obtain ⟨z, hxz, -⟩ := Relation.TransGen.head'_iff.1 ((hmem x).1 hx).2
  exact mem_keys_of_mem_targets hxz

namespace Report

/-- The texts that a report has from its input are without the escape character: its path, the names
of modules and packages, the entries of cycles, the warnings and the errors. -/
structure IsClean (r : Report) : Prop where
  /-- The path of the input. -/
  input : HasNoEscape r.input
  /-- The modules that import internal modules. -/
  sources : ∀ x ∈ r.result.graph.internal.keys, HasNoEscape x
  /-- The internal modules that are imported. -/
  targets : ∀ x ∈ r.result.graph.internal.allTargets, HasNoEscape x
  /-- The packages that are imported. -/
  packages : ∀ x ∈ r.result.graph.external.allTargets, HasNoEscape x
  /-- The entries of the cycles. -/
  cycles : ∀ cycle ∈ r.result.graph.cycles, ∀ x ∈ cycle, HasNoEscape x
  /-- The warnings. -/
  warnings : ∀ warning ∈ r.result.warnings, HasNoEscape warning
  /-- The errors. -/
  errors : ∀ error ∈ r.result.errors, HasNoEscape error

open ModuleDeps.Span

@[simp] theorem hasNoEscape_plural (n : Nat) : HasNoEscape (plural n) := by
  rw [plural]
  split <;> decide

theorem allFree_heading {title : String} (h : HasNoEscape title) : AllFree (heading title) := by
  simp +decide [heading, h]

theorem allFree_statisticsSpans (s : Statistics) : AllFree (statisticsSpans s) := by
  simp +decide [statisticsSpans, allFree_heading]

theorem allFree_titleSpans {r : Report} (h : r.IsClean) : AllFree (titleSpans r) := by
  simp +decide [titleSpans, h.input]

theorem allFree_groupSpans {r : Report} (h : r.IsClean) : AllFree (groupSpans r.result.graph) := by
  have hgroup : ∀ group ∈ r.result.graph.cycleGroups, HasNoEscape (", ".intercalate group) := by
    intro group hmem
    refine (hasNoEscape_intercalate (by decide)).2 fun x hx => ?_
    exact h.sources x (EdgeMap.mem_keys_of_mem_groups hmem hx)
  simp +decide +contextual [groupSpans, hgroup]

theorem allFree_cycleSpans {r : Report} (h : r.IsClean) (verbose : Bool) :
    AllFree (cycleSpans verbose r.result.graph) := by
  have hcycle : ∀ cycle i, (cycle, i) ∈ r.result.graph.cycles.zipIdx →
      HasNoEscape (" -> ".intercalate cycle) := by
    intro cycle i hmem
    exact (hasNoEscape_intercalate (by decide)).2
      (h.cycles cycle (List.fst_mem_of_mem_zipIdx hmem))
  have hgroups := allFree_groupSpans h
  simpa +decide [cycleSpans, allFree_heading, hgroups] using fun _ => hcycle

theorem allFree_externalSpans {r : Report} (h : r.IsClean) (limit : Nat) :
    AllFree (externalSpans limit r.result.graph) := by
  have hname : ∀ name count, (name, count) ∈ r.result.graph.externalUsage.take limit →
      HasNoEscape name := by
    intro name count hmem
    exact h.packages name (Graph.mem_of_mem_take_tally hmem)
  simpa +decide [externalSpans, allFree_heading] using fun _ _ => hname

theorem allFree_fanOutSpans {r : Report} (h : r.IsClean) {name : String} (hname : HasNoEscape name)
    (count : Nat) : AllFree (fanOutSpans r.result.graph name count) := by
  have htarget : ∀ target ∈ (r.result.graph.internalTargets name).take importsPerModule,
      HasNoEscape target := by
    intro target hmem
    exact h.targets target (EdgeMap.mem_allTargets_iff.2 ⟨name, List.mem_of_mem_take hmem⟩)
  have hending : HasNoEscape (if count = 1 then "y" else "ies") := by
    split <;> decide
  simp +decide +contextual [fanOutSpans, hname, hending, htarget, -List.map_take]

theorem allFree_fanInSpans {r : Report} (h : r.IsClean) : AllFree (fanInSpans r.result.graph) := by
  have hname : ∀ name count,
      (name, count) ∈ (r.result.graph.fanIn.entries.mergeSort Graph.countOrder).take topModules →
        HasNoEscape name := by
    intro name count hmem
    exact h.targets name (Graph.mem_of_mem_take_tally hmem)
  simpa +decide [fanInSpans] using hname

theorem allFree_structureSpans {r : Report} (h : r.IsClean) :
    AllFree (structureSpans r.result.graph) := by
  have hmodule : ∀ name count,
      (name, count) ∈ (r.result.graph.byFanOut.filter fun e => 0 < e.2).take topModules →
        AllFree (fanOutSpans r.result.graph name count) := by
    intro name count hmem
    have hentry := List.mem_mergeSort.1 (List.mem_filter.1 (List.mem_of_mem_take hmem)).1
    obtain ⟨e, he, heq⟩ := List.mem_map.1 hentry
    cases heq
    exact allFree_fanOutSpans h (h.sources _ (List.mem_map_of_mem he)) _
  have hfanIn := allFree_fanInSpans h
  simp +decide +contextual [structureSpans, allFree_heading, hmodule, hfanIn]

theorem allFree_metricSpans (s : Statistics) : AllFree (metricSpans s) := by
  have htext : ∀ metric : Metric, HasNoEscape metric.text := by
    intro metric
    cases metric with
    | count n => exact hasNoEscape_repr n
    | average x => exact hasNoEscape_fixed 2 x
  simp +decide [metricSpans, Statistics.metrics, allFree_heading, htext]

theorem allFree_markedSpans {title mark : String} (htitle : HasNoEscape title)
    (hmark : HasNoEscape mark) {lines : List String} (h : ∀ line ∈ lines, HasNoEscape line)
    (style : Style) : AllFree (markedSpans title style mark lines) := by
  simp +decide +contextual [markedSpans, allFree_heading, htitle, hmark, h]

/-- A clean report in one line is written without the escape character. -/
theorem allFree_lineSpans {r : Report} (h : r.IsClean) : AllFree r.lineSpans := by
  simp +decide [lineSpans, h.input]

/-- A clean report in full is written without the escape character. -/
theorem allFree_textSpans {r : Report} (h : r.IsClean) (verbose : Bool) (limit : Nat) :
    AllFree (r.textSpans verbose limit) := by
  have hwarnings : AllFree (markedSpans "Warnings" .yellow "WARNING" r.result.warnings) :=
    allFree_markedSpans (by decide) (by decide) h.warnings .yellow
  have herrors :
      AllFree (markedSpans "Dependency Analysis Errors" .boldRed "ERROR" r.result.errors) :=
    allFree_markedSpans (by decide) (by decide) h.errors .boldRed
  simp [textSpans, allFree_titleSpans h, allFree_statisticsSpans, allFree_cycleSpans h,
    allFree_externalSpans h, allFree_structureSpans h, allFree_metricSpans, hwarnings, herrors]

/-- The text in full of a clean report has colours if they are asked for. -/
theorem hasNoEscape_text_iff {r : Report} (h : r.IsClean) (colors verbose : Bool) (limit : Nat) :
    HasNoEscape (r.text colors verbose limit) ↔ colors = false := by
  have hfree := allFree_textSpans h verbose limit
  cases colors with
  | false => exact iff_of_true (hasNoEscape_render hfree) rfl
  | true =>
      refine iff_of_false (fun hnone => ?_) (by decide)
      -- the title has a style
      cases (hasNoEscape_render_true_iff hfree).1 hnone _ List.mem_cons_self

/-- The line of a clean report has colours if they are asked for and there are errors. -/
theorem hasNoEscape_line_iff {r : Report} (h : r.IsClean) (colors : Bool) :
    HasNoEscape (r.line colors) ↔ colors = false ∨ r.result.hasErrors = false := by
  have hfree := allFree_lineSpans h
  cases colors with
  | false => exact iff_of_true (hasNoEscape_render hfree) (Or.inl rfl)
  | true =>
      rw [line, hasNoEscape_render_true_iff hfree]
      cases herrors : r.result.hasErrors with
      | false => simp [lineSpans, herrors, plain]
      | true => simp [lineSpans, herrors, styled]

/-- **Colours leave the content as it is.**  For clean reports, with or without details and with any
limit, the text in full, the line and the text of all reports in either mode are with colours, once
the control sequences are dropped, what they are without.  There are such sequences in every text in
full, and so in the text of all reports if there is one; in the lines of all reports there are some
if a report has errors.  Without colours there is not even an escape character. -/
theorem colors_keep_content (rs : List Report) (h : ∀ r ∈ rs, r.IsClean) (verbose : Bool)
    (limit : Nat) :
    (∀ r ∈ rs, withoutColors (r.text true verbose limit) = r.text false verbose limit) ∧
    (∀ r ∈ rs, withoutColors (r.line true) = r.line false) ∧
    (∀ quiet, withoutColors (Layout.text ⟨true, verbose, quiet, limit⟩ rs) =
      Layout.text ⟨false, verbose, quiet, limit⟩ rs) ∧
    (∀ r ∈ rs, ¬HasNoEscape (r.text true verbose limit) ∧
      HasNoEscape (r.text false verbose limit)) ∧
    (∀ quiet, HasNoEscape (Layout.text ⟨false, verbose, quiet, limit⟩ rs)) ∧
    (¬HasNoEscape (Layout.text ⟨true, verbose, false, limit⟩ rs) ↔ rs ≠ []) ∧
    (¬HasNoEscape (Layout.text ⟨true, verbose, true, limit⟩ rs) ↔
      ∃ r ∈ rs, r.result.hasErrors = true) := by
  have htext : ∀ r ∈ rs, IsColoring (r.text false verbose limit) (r.text true verbose limit) :=
    fun r hr => isColoring_render (allFree_textSpans (h r hr) verbose limit)
  have hline : ∀ r ∈ rs, IsColoring (r.line false) (r.line true) :=
    fun r hr => isColoring_render (allFree_lineSpans (h r hr))
  have hbreak : HasNoEscape "\n" := by decide
  have hfull (colors : Bool) : HasNoEscape (Layout.text ⟨colors, verbose, false, limit⟩ rs) ↔
      ∀ r ∈ rs, colors = false := by
    refine (hasNoEscape_intercalate hbreak).trans (List.forall_mem_map.trans ?_)
    exact forall₂_congr fun r hr => hasNoEscape_text_iff (h r hr) colors verbose limit
  have hlines (colors : Bool) : HasNoEscape (Layout.text ⟨colors, verbose, true, limit⟩ rs) ↔
      ∀ r ∈ rs, colors = false ∨ r.result.hasErrors = false := by
    refine hasNoEscape_join.trans (List.forall_mem_map.trans ?_)
    exact forall₂_congr fun r hr => hasNoEscape_line_iff (h r hr) colors
  refine ⟨fun r hr => (htext r hr).withoutColors, fun r hr => (hline r hr).withoutColors, ?_, ?_,
    ?_, ?_, ?_⟩
  · intro quiet
    cases quiet with
    | true => exact (isColoring_join hline).withoutColors
    | false =>
        exact (rel_intercalate isColoring_empty IsColoring.append (isColoring_self hbreak)
          htext).withoutColors
  · intro r hr
    simp [hasNoEscape_text_iff (h r hr)]
  · intro quiet
    cases quiet with
    | true => exact (hlines false).2 fun _ _ => Or.inl rfl
    | false => exact (hfull false).2 fun _ _ => rfl
  · rw [hfull true]
    simp [List.eq_nil_iff_forall_not_mem]
  · rw [hlines true]
    simp

/-- Names that look like control sequences without the escape character, on a cycle and outside. -/
theorem colors_keep_bracketed_names :
    let g : Graph :=
      { Graph.empty with
        internal := .ofList [("[31m", ["a;1m"]), ("a;1m", ["[31m"])]
        external := .ofList [("[31m", ["[0m"])]
        cycles := [["[31m", "a;1m", "[31m"]] }
    let r : Report := ⟨"[1;34m", 2, "", .assemble g [] ["0m"] ["[33mWARNING"]⟩
    r.IsClean ∧ withoutColors (r.text true true 10) = r.text false true 10 ∧
      withoutColors (Layout.text ⟨true, true, true, 10⟩ [r, r]) =
        Layout.text ⟨false, true, true, 10⟩ [r, r] ∧
      ¬HasNoEscape (Layout.text ⟨true, true, true, 10⟩ [r, r]) := by
  intro g r
  have hclean : r.IsClean := by
    constructor <;> decide +kernel
  have hall : ∀ r' ∈ [r, r], r'.IsClean := by simp [hclean]
  obtain ⟨htext, -, hlayout, -, -, -, hlines⟩ := colors_keep_content [r, r] hall true 10
  exact ⟨hclean, htext r List.mem_cons_self, hlayout true,
    hlines.2 ⟨r, List.mem_cons_self, rfl⟩⟩

end Report

end ModuleDeps
