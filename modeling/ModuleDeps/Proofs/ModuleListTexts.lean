/-
Module lists survive their texts.

A module list is an array of records, alone or as the member `modules` of an object.  A record may
leave out the path and the imports; it is then read as if they were there and empty.  Every text of
such a value, in either form, is read as the modules in order.

The other members of the object do not matter, but they are read all the same, and so they have to
be within the limits of the reader: their brackets are nested at most 126 levels deep, one less than
the reader allows, and their numbers pass its test for those that are too large.  Beyond either
limit there are texts that are not read.

Main definitions:

* `ModuleDeps.ModuleEntry` — a record of a module list, with members left out or not;
* `ModuleDeps.ModuleList.ReadAs` — all texts of a list, alone or in an object, are read as modules.

Main results:

* `ModuleDeps.ModuleEntry.ofJson?_toJson` — a record is read as its module;
* `ModuleDeps.ModuleList.parse_of_ofJson?` — a text of a value that lists modules is read as these;
* `ModuleDeps.ModuleList.texts_read_as_modules` — **module lists survive their texts**;
* `ModuleDeps.ModuleList.parse_fails_beyond_limits` — other members can make a text unreadable.
-/

import ModuleDeps.ModuleList
import ModuleDeps.Proofs.JsonReading

set_option relaxedAutoImplicit false
set_option autoImplicit false

namespace ModuleDeps

open Json (Fits IsText)

/-! ### Records -/

/-- A record of a module list: the path and the imports may be left out. -/
structure ModuleEntry where
  name : String
  path : Option String
  imports : Option (List String)

namespace ModuleEntry

/-- The members of the record. -/
def members (e : ModuleEntry) : List (String × Json) :=
  ("name", .string e.name) :: ((e.path.map fun path => ("path", .string path)).toList ++
    (e.imports.map fun imports => ("imports", .array (imports.map .string))).toList)

def toJson (e : ModuleEntry) : Json :=
  .object e.members

/-- The module that the record describes: what is left out is empty. -/
def toModule (e : ModuleEntry) : SourceModule :=
  ⟨e.name, e.path.getD "", e.imports.getD []⟩

/-- The record of a module that leaves nothing out. -/
def ofModule (m : SourceModule) : ModuleEntry :=
  ⟨m.name, some m.path, some m.imports⟩

/-- The value of a list of records. -/
def listJson (es : List ModuleEntry) : Json :=
  .array (es.map toJson)

theorem member?_name (e : ModuleEntry) :
    Json.member? e.members "name" = some (some (.string e.name)) := by
  obtain ⟨name, path, imports⟩ := e
  cases path <;> cases imports <;> rfl

theorem optionalMember?_path (e : ModuleEntry) :
    SourceModule.optionalMember? e.members "path" Json.toString? "" = some (e.path.getD "") := by
  obtain ⟨name, path, imports⟩ := e
  cases path <;> cases imports <;> rfl

theorem optionalMember?_imports (e : ModuleEntry) :
    SourceModule.optionalMember? e.members "imports" Json.toStrings? [] =
      some (e.imports.getD []) := by
  obtain ⟨name, path, imports⟩ := e
  cases imports with
  | none => cases path <;> rfl
  | some imports =>
      have hstrings := Json.toStrings?_strings imports
      cases path <;> exact hstrings

/-- A record is read as its module. -/
theorem ofJson?_toJson (e : ModuleEntry) : SourceModule.ofJson? e.toJson = some e.toModule := by
  simp only [toJson, SourceModule.ofJson?, member?_name, optionalMember?_path,
    optionalMember?_imports, Option.bind_eq_bind, Option.bind_some]
  rfl

theorem fits_toJson (e : ModuleEntry) (levels : Nat) : Fits (levels + 2) e.toJson := by
  intro m hm
  rw [members, List.mem_cons, List.mem_append] at hm
  rcases hm with rfl | hm | hm
  · exact Json.fits_string _ _
  · obtain ⟨path, -, rfl⟩ := Option.map_eq_some_iff.1 (Option.mem_toList.1 hm)
    exact Json.fits_string _ path
  · obtain ⟨imports, -, rfl⟩ := Option.map_eq_some_iff.1 (Option.mem_toList.1 hm)
    exact Json.fits_strings imports levels

theorem fits_listJson (es : List ModuleEntry) (levels : Nat) :
    Fits (levels + 3) (listJson es) := by
  intro v hv
  obtain ⟨e, -, rfl⟩ := List.mem_map.1 hv
  exact e.fits_toJson levels

theorem ofItems?_listJson (es : List ModuleEntry) :
    ModuleList.ofItems? (listJson es) = some (es.map toModule) :=
  Json.mapM_map_eq_map fun e _ => e.ofJson?_toJson

theorem listJson_ofModule (modules : List SourceModule) :
    listJson (modules.map ofModule) = ModuleList.toJson modules := by
  rw [listJson, List.map_map]
  rfl

theorem toModule_ofModule (modules : List SourceModule) :
    (modules.map ofModule).map toModule = modules := by
  rw [List.map_map]
  exact List.map_id modules

end ModuleEntry

/-! ### Lists -/

namespace ModuleList

/-- A text of a value that lists modules is read as these. -/
theorem parse_of_ofJson? {levels : Nat} {v : Json} {modules : List SourceModule} {text : String}
    (h : Fits levels v) (hlevels : levels ≤ Json.maxDepth) (hmodules : ofJson? v = some modules)
    (htext : IsText v text) : parse text = .ok modules := by
  rw [parse, Json.readFirst_of_isText h hlevels htext]
  simp only [hmodules]
  rfl

/-- The only member with a name is found among others. -/
theorem member?_append {before after : List (String × Json)} {name : String} (v : Json)
    (h : ∀ m ∈ before ++ after, m.1 ≠ name) :
    Json.member? (before ++ (name, v) :: after) name = some (some v) := by
  have hnone : ∀ ms : List (String × Json), (∀ m ∈ ms, m.1 ≠ name) →
      ms.filter (fun m => m.1 == name) = [] := by
    intro ms hms
    rw [List.filter_eq_nil_iff]
    intro m hm
    simpa using hms m hm
  have hbefore := hnone before fun m hm => h m (List.mem_append_left after hm)
  have hafter := hnone after fun m hm => h m (List.mem_append_right before hm)
  have hname : ((name, v).1 == name) = true := beq_self_eq_true name
  rw [Json.member?, List.filter_append, hbefore, List.nil_append, List.filter_cons, if_pos hname,
    hafter]

/-- All texts of a list, alone or as the member `modules` of an object whose other members are
within the limits of reading, are read as the modules. -/
def ReadAs (list : Json) (modules : List SourceModule) : Prop :=
  ∀ before after : List (String × Json),
    (∀ m ∈ before ++ after, m.1 ≠ "modules" ∧ Fits 126 m.2) →
    ∀ v ∈ [list, .object (before ++ ("modules", list) :: after)],
      IsText v v.toCompact ∧ IsText v v.toPretty ∧ ∀ text, IsText v text → parse text = .ok modules

theorem readAs_listJson (es : List ModuleEntry) :
    ReadAs (ModuleEntry.listJson es) (es.map ModuleEntry.toModule) := by
  intro before after hothers
  have hitems := ModuleEntry.ofItems?_listJson es
  have hbare : Fits 3 (ModuleEntry.listJson es) := ModuleEntry.fits_listJson es 0
  -- the object around the list takes one of the 127 levels
  have hwrapped : Fits 127 (.object (before ++ ("modules", ModuleEntry.listJson es) :: after)) := by
    intro m hm
    rw [List.mem_append, List.mem_cons] at hm
    rcases hm with hm | rfl | hm
    · exact (hothers m (List.mem_append_left after hm)).2
    · exact ModuleEntry.fits_listJson es 123
    · exact (hothers m (List.mem_append_right before hm)).2
  rw [List.forall_mem_cons, List.forall_mem_singleton]
  constructor
  · refine ⟨Json.isText_toCompact hbare, Json.isText_toPretty hbare, fun text htext => ?_⟩
    exact parse_of_ofJson? hbare (by decide) hitems htext
  · refine ⟨Json.isText_toCompact hwrapped, Json.isText_toPretty hwrapped, fun text htext => ?_⟩
    refine parse_of_ofJson? hwrapped (by decide) ?_ htext
    rw [ofJson?, member?_append _ fun m hm => (hothers m hm).1]
    exact hitems

/-- **Module lists survive their texts.**  The value of a list of modules is read as the list, and a
record that leaves out its path or its imports is read as one in which they are empty. -/
theorem texts_read_as_modules :
    (∀ modules : List SourceModule, ReadAs (toJson modules) modules) ∧
      ∀ es : List ModuleEntry, ReadAs (ModuleEntry.listJson es) (es.map ModuleEntry.toModule) := by
  refine ⟨fun modules => ?_, readAs_listJson⟩
  have h := readAs_listJson (modules.map ModuleEntry.ofModule)
  rwa [ModuleEntry.listJson_ofModule, ModuleEntry.toModule_ofModule] at h

/-- Both forms of a list of one odd module, the second one behind a member that does not matter; and
the same for a record that leaves out its imports. -/
theorem texts_read_as_odd_module :
    let m : SourceModule := ⟨"a\"\\", "𝄞", ["import x\n", ""]⟩
    let e : ModuleEntry := ⟨"a", some "", none⟩
    (∀ o ∈ [("x", Json.null)] ++ [], o.1 ≠ "modules" ∧ Fits 126 o.2) ∧
      parse (toJson [m]).toCompact = .ok [m] ∧
      parse (Json.object [("x", .null), ("modules", toJson [m])]).toPretty = .ok [m] ∧
      parse (ModuleEntry.listJson [e]).toCompact = .ok [⟨"a", "", []⟩] := by
  intro m e
  have hothers : ∀ o ∈ [("x", Json.null)] ++ [], o.1 ≠ "modules" ∧ Fits 126 o.2 := by
    intro o ho
    rw [List.append_nil, List.mem_singleton] at ho
    subst ho
    exact ⟨by decide, Json.fits_null 126⟩
  have hmodule := texts_read_as_modules.1 [m] [("x", .null)] [] hothers
  have hentry := texts_read_as_modules.2 [e] [("x", .null)] [] hothers
  rw [List.forall_mem_cons, List.forall_mem_singleton] at hmodule hentry
  obtain ⟨⟨hcompact, -, hbare⟩, -, hpretty, hwrapped⟩ := hmodule
  exact ⟨hothers, hbare _ hcompact, hwrapped _ hpretty, hentry.1.2.2 _ hentry.1.1⟩

/-! ### Beyond the limits -/

/-- Empty brackets inside so many others. -/
def nested : Nat → Json
  | 0 => .array []
  | n + 1 => .array [nested n]

theorem fits_nested (n : Nat) : Fits (n + 1) (nested n) := by
  induction n with
  | zero => exact fun v hv => absurd hv List.not_mem_nil
  | succ n ih =>
      intro v hv
      rw [List.mem_singleton.1 hv]
      exact ih

theorem isNumber_huge : Json.IsNumber "1e999" := by
  have hdigit : ∀ c : Char, c.isDigit = true → ∀ n : Nat, ∀ d ∈ List.replicate n c,
      d.isDigit = true := by
    intro c hc n d hd
    rwa [List.eq_of_mem_replicate hd]
  refine ⟨⟨[], ['1'], [], ['e', '9', '9', '9'], Or.inl rfl, ⟨by simp, hdigit '1' rfl 1⟩, by simp,
    Or.inl rfl, Or.inr ?_⟩, rfl⟩
  exact ⟨'e', [], ['9', '9', '9'], Or.inl rfl, Or.inl rfl, ⟨by simp, hdigit '9' rfl 3⟩, rfl⟩

/-- **Other members can make a text unreadable.**  Both values are objects whose member `modules` is
the empty list: in the first one another member is nested 127 levels deep, in the second one it is a
number beyond the doubles.  Neither text is read. -/
theorem parse_fails_beyond_limits :
    let deep := Json.object [("modules", toJson []), ("x", nested 126)]
    let huge := Json.object [("modules", toJson []), ("x", .number "1e999")]
    (IsText deep deep.toCompact ∧ (parse deep.toCompact).toOption = none) ∧
      IsText huge huge.toCompact ∧ (parse huge.toCompact).toOption = none := by
  intro deep huge
  have hlist : ∀ levels, Fits (levels + 1) (toJson []) := fun _ _ hv =>
    absurd hv List.not_mem_nil
  have hdeep : Fits 128 deep := by
    intro m hm
    rw [List.mem_cons, List.mem_singleton] at hm
    rcases hm with rfl | rfl
    · exact hlist 126
    · exact fits_nested 126
  have hhuge : IsText huge huge.toCompact := by
    rw [IsText, Json.toCompact, String.toList_ofList]
    refine Json.spells_object fun m hm => ?_
    rw [List.mem_cons, List.mem_singleton] at hm
    rcases hm with rfl | rfl
    · exact Json.spells_compact (hlist 0)
    · exact .token (.number isNumber_huge)
  have hcompact := Json.isText_toCompact hdeep
  refine ⟨⟨hcompact, ?_⟩, hhuge, by decide +kernel⟩
  -- the tokens are known, and the machine stops at the last bracket that opens
  rw [parse, Json.readFirst, Json.tokenize_of_isText hdeep hcompact]
  decide +kernel

end ModuleList

end ModuleDeps
