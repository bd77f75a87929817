/-
Import statements are read by their grammar.

The reader takes a text apart from the outside: it strips a keyword, cuts the rest at commas, cuts
each piece into words, and gives up as soon as one piece has not the right form.  Each of these
steps is matched with the rule of the grammar that it undoes.  Both directions use that a name holds
neither blanks nor commas, so that the text can be taken apart in one way only.

Main results:

* `ModuleDeps.Import.mapM_cutAt_eq_some_iff` — a list is read piece by piece;
* `ModuleDeps.Import.itemList?_eq_some_iff` — what is read as a list of items;
* `ModuleDeps.Import.read?_eq_some_iff` — a text that does not end in a blank is read as a statement
  exactly when the grammar derives it as that statement;
* `ModuleDeps.Import.exists_newRecord_of_mem_parse` — what every record of a text looks like;
* `ModuleDeps.Import.parse_eq_records_of_derives` — when a text has records, and which.
-/

import ModuleDeps.Proofs.ImportGrammar

set_option relaxedAutoImplicit false
set_option autoImplicit false

namespace ModuleDeps.Import

open Text

/-! ### Lists -/

section Lists

variable {P : List Char → String → Prop} {f : List Char → Option String}

/-- A list is read when its first element and the others are. -/
theorem mapM_cons_eq_some_iff {t : List Char} {ts : List (List Char)} {xs : List String} :
    (t :: ts).mapM f = some xs ↔ ∃ y ys, f t = some y ∧ ts.mapM f = some ys ∧ xs = y :: ys := by
  rw [List.mapM_cons, Option.bind_eq_bind, Option.bind_eq_some_iff]
  constructor
  · rintro ⟨y, hy, h⟩
    rw [Option.bind_eq_bind, Option.bind_eq_some_iff] at h
    obtain ⟨ys, hys, h⟩ := h
    exact ⟨y, ys, hy, hys, (Option.some.inj h).symm⟩
  · rintro ⟨y, ys, hy, hys, rfl⟩
    exact ⟨y, hy, by rw [hys]; rfl⟩

/-- Pieces that are read one by one make a list when they are joined with commas. -/
theorem separated_glue (hf : ∀ text x, f text = some x → P text x) {pieces : List (List Char)}
    (hne : pieces ≠ []) {xs : List String} (h : pieces.mapM f = some xs) :
    Separated P (glue ',' pieces) xs := by
  induction pieces generalizing xs with
  | nil => exact absurd rfl hne
  | cons p ps ih =>
      obtain ⟨y, ys, hy, hys, rfl⟩ := mapM_cons_eq_some_iff.1 h
      cases ps with
      | nil =>
          obtain rfl : ys = [] := by simpa using hys.symm
          rw [glue_singleton]
          exact .last (hf _ _ hy)
      | cons q qs =>
          rw [glue_cons _ _ (by simp)]
          exact .cons (hf _ _ hy) (ih (by simp) hys)

/-- A list is found again piece by piece when its parts hold no comma. -/
theorem Separated.mapM_cutAt (hf : ∀ text x, P text x → f text = some x)
    (hcomma : ∀ text x, P text x → ',' ∉ text) {cs : List Char} {xs : List String}
    (h : Separated P cs xs) : (cutAt ',' cs).mapM f = some xs := by
  induction h with
  | last h =>
      rw [cutAt_of_notMem (hcomma _ _ h)]
      exact mapM_cons_eq_some_iff.2 ⟨_, [], hf _ _ h, rfl, rfl⟩
  | cons h _ ih =>
      rw [cutAt_append, cutAt_of_notMem (hcomma _ _ h)]
      exact mapM_cons_eq_some_iff.2 ⟨_, _, hf _ _ h, ih, rfl⟩

/-- A list is read piece by piece. -/
theorem mapM_cutAt_eq_some_iff (hf : ∀ text x, f text = some x ↔ P text x)
    (hcomma : ∀ text x, P text x → ',' ∉ text) {cs : List Char} {xs : List String} :
    (cutAt ',' cs).mapM f = some xs ↔ Separated P cs xs := by
  constructor
  · intro h
    rw [← glue_cutAt ',' cs]
    exact separated_glue (fun text x => (hf text x).1) (cutWhere_ne_nil _ _) h
  · intro h
    exact h.mapM_cutAt (fun text x => (hf text x).2) hcomma

/-- Blanks in front of a list may be left out if they may be left out in front of its parts. -/
theorem Separated.trimStart (hP : ∀ text x, P text x → P (trimStart text) x) {cs : List Char}
    {xs : List String} (h : Separated P cs xs) : Separated P (trimStart cs) xs := by
  cases h with
  | last h => exact .last (hP _ _ h)
  | @cons text rest x xs h hrest =>
      have hcut : Text.trimStart (text ++ ',' :: rest) = Text.trimStart text ++ ',' :: rest := by
        have hcomma : isBlank ',' = false := by decide
        rw [Text.trimStart, List.dropWhile_append]
        split
        · next he => rw [Text.trimStart, List.isEmpty_iff.1 he]; simp [hcomma]
        · rfl
      rw [hcut]
      exact .cons (hP _ _ h) hrest

/-- A list holds a character beside the commas only if one of its parts does. -/
theorem Separated.notMem {c : Char} (hc : c ≠ ',') (hP : ∀ text x, P text x → c ∉ text)
    {cs : List Char} {xs : List String} (h : Separated P cs xs) : c ∉ cs := by
  induction h with
  | last h => exact hP _ _ h
  | cons h _ ih =>
      intro hmem
      rcases List.mem_append.1 hmem with hmem | hmem
      · exact hP _ _ h hmem
      · rcases List.mem_cons.1 hmem with hmem | hmem
        · exact hc hmem
        · exact ih hmem

/-- What the parts of a list of texts are has every property that a single part gives it. -/
theorem Separated.forall_mem {Q : String → Prop} (hP : ∀ text x, P text x → Q x) {cs : List Char}
    {xs : List String} (h : Separated P cs xs) : ∀ x ∈ xs, Q x := by
  induction h with
  | last h =>
      intro x hx
      rw [List.mem_singleton.1 hx]
      exact hP _ _ h
  | cons h _ ih =>
      intro x hx
      rcases List.mem_cons.1 hx with rfl | hx
      · exact hP _ _ h
      · exact ih x hx

theorem Separated.ne_nil {cs : List Char} {xs : List String} (h : Separated P cs xs) :
    xs ≠ [] := by
  cases h <;> simp

end Lists

/-! ### The parts of a list -/

theorem modulePath?_eq_some_iff {text : List Char} {x : String} :
    modulePath? text = some x ↔ Aliased Path text x :=
  aliased_iff (fun _ => isPath_iff) fun _ h => h.isSolid

theorem comma_notMem_of_aliased_path {text : List Char} {x : String} (h : Aliased Path text x) :
    ',' ∉ text :=
  h.notMem (by decide) (by decide) fun _ hp => hp.notMem (by decide) (by decide)

theorem isSolid_star : IsSolid ['*'] := by
  decide

/-- A name with an alias is not a star, for a star is no identifier. -/
theorem trim_ne_star_of_aliased {text : List Char} {x : String} (h : Aliased Ident text x) :
    trim text ≠ ['*'] := by
  intro hstar
  obtain ⟨a, b, -, -, rfl⟩ := (trim_eq_iff isSolid_star).1 hstar
  refine h.notMem (c := '*') (by decide) (by decide) (fun _ hi => hi.notMem (by decide)) ?_
  simp

theorem item?_eq_some_iff {text : List Char} {x : String} : item? text = some x ↔ Item text x := by
  have hname : ((beforeAlias? text).bind fun name =>
      if isIdent name then some (String.ofList name) else none) = some x ↔ Aliased Ident text x :=
    aliased_iff (fun _ => isIdent_iff) fun _ h => h.isSolid
  rw [item?]
  constructor
  · intro h
    split at h
    · next hstar =>
      obtain ⟨a, b, ha, hb, rfl⟩ := (trim_eq_iff isSolid_star).1 hstar
      obtain rfl : "*" = x := by simpa using h
      exact .star ha hb
    · exact .name (hname.1 h)
  · intro h
    cases h with
    | star ha hb => rw [if_pos (trim_of_isSolid ha isSolid_star hb)]
    | name h => rw [if_neg (trim_ne_star_of_aliased h), hname.2 h]

theorem Item.trimStart {text : List Char} {x : String} (h : Item text x) :
    Item (trimStart text) x := by
  cases h with
  | star ha hb =>
      rw [List.append_assoc, trimStart_append_of_isGap ha, trimStart_append_of_isSolid isSolid_star]
      exact .star isGap_nil hb
  | name h => exact .name (h.trimStart fun _ hi => hi.isSolid)

/-- Of the characters that are neither blank nor part of identifiers, an item holds a star only. -/
theorem Item.notMem {c : Char} (hblank : isBlank c = false) (hident : isIdentRest c = false)
    (hstar : c ≠ '*') {text : List Char} {x : String} (h : Item text x) : c ∉ text := by
  cases h with
  | @star a b ha hb =>
      intro hmem
      simp only [List.mem_append, List.mem_singleton] at hmem
      rcases hmem with (hmem | hmem) | hmem
      · rw [ha c hmem] at hblank
        exact absurd hblank (by decide)
      · exact hstar hmem
      · rw [hb c hmem] at hblank
        exact absurd hblank (by decide)
  | name h => exact h.notMem hblank hident fun _ hi => hi.notMem hident

theorem mapM_item?_eq_some_iff {cs : List Char} {names : List String} :
    (cutAt ',' cs).mapM item? = some names ↔ Separated Item cs names :=
  mapM_cutAt_eq_some_iff (fun _ _ => item?_eq_some_iff)
    fun _ _ h => h.notMem (by decide) (by decide) (by decide)

theorem paren_notMem_of_separated {cs : List Char} {names : List String}
    (h : Separated Item cs names) : '(' ∉ cs :=
  h.notMem (by decide) fun _ _ h => h.notMem (by decide) (by decide) (by decide)

/-! ### Lists of items -/

/-- A gap is no item. -/
theorem item?_of_allBlank {text : List Char} (h : allBlank text = true) : item? text = none := by
  have hgap : IsGap text := List.all_eq_true.1 h
  have htrim : trim text = [] := by
    rw [trim, trimStart_eq_nil_iff.2 hgap]
    rfl
  rw [item?, htrim, if_neg (by decide), beforeAlias?, words_of_isGap hgap]
  rfl

/-- A piece that is read is not dropped from the end of a list. -/
theorem dropTrailingBlank_of_mapM {pieces : List (List Char)} {names : List String}
    (h : pieces.mapM item? = some names) : dropTrailingBlank pieces = pieces := by
  rw [dropTrailingBlank, if_neg]
  intro hcond
  simp only [Bool.and_eq_true, Option.any_eq_true] at hcond
  obtain ⟨-, last, hlast, hblank⟩ := hcond
  -- the last piece would have to be an item and a gap
  obtain ⟨front, rfl⟩ := List.getLast?_eq_some_iff.1 hlast
  rw [List.mapM_append, List.mapM_cons, item?_of_allBlank hblank] at h
  cases hfront : front.mapM item? with
  | none => simp [hfront] at h
  | some ys => simp [hfront] at h

/-- A gap behind a last comma is dropped. -/
theorem dropTrailingBlank_append {pieces : List (List Char)} (hne : pieces ≠ [])
    {gap : List Char} (hgap : IsGap gap) : dropTrailingBlank (pieces ++ [gap]) = pieces := by
  have hblank : allBlank gap = true := List.all_eq_true.2 hgap
  rw [dropTrailingBlank, if_pos (by simp [hblank, List.length_pos_iff.2 hne])]
  simp

/-- The pieces between parentheses are those of a list, or those of a list and a gap. -/
theorem dropTrailingBlank_eq_or (pieces : List (List Char)) :
    dropTrailingBlank pieces = pieces ∨
      ∃ gap, IsGap gap ∧ dropTrailingBlank pieces ≠ [] ∧
        pieces = dropTrailingBlank pieces ++ [gap] := by
  rw [dropTrailingBlank]
  split
  · next hcond =>
    right
    simp only [Bool.and_eq_true, decide_eq_true_eq, Option.any_eq_true] at hcond
    obtain ⟨hlen, last, hlast, hblank⟩ := hcond
    obtain ⟨front, rfl⟩ := List.getLast?_eq_some_iff.1 hlast
    refine ⟨last, List.all_eq_true.1 hblank, ?_, by simp⟩
    rw [List.dropLast_concat]
    rintro rfl
    simp at hlen
  · exact Or.inl rfl

/-- Joining one more piece. -/
theorem glue_concat {sep : Char} {pieces : List (List Char)} (hne : pieces ≠ [])
    (piece : List Char) : glue sep (pieces ++ [piece]) = glue sep pieces ++ sep :: piece := by
  induction pieces with
  | nil => exact absurd rfl hne
  | cons p ps ih =>
      cases ps with
      | nil => simp [glue_cons]
      | cons q qs =>
          have ih := ih (by simp)
          rw [List.cons_append, glue_cons _ _ (by simp), ih,
            glue_cons sep p (List.cons_ne_nil q qs), List.append_assoc, List.cons_append]

/-- What is read between parentheses. -/
theorem itemList_of_parens {inner : List Char} {names : List String}
    (h : (dropTrailingBlank (cutAt ',' inner)).mapM item? = some names) :
    ItemList ('(' :: inner ++ [')']) names := by
  have hinner := glue_cutAt ',' inner
  rcases dropTrailingBlank_eq_or (cutAt ',' inner) with hsame | ⟨gap, hgap, hne, hpieces⟩
  · rw [hsame] at h
    exact .parens (mapM_item?_eq_some_iff.1 h)
  · rw [hpieces, glue_concat hne] at hinner
    rw [← hinner]
    exact .trailing (separated_glue (fun _ _ => item?_eq_some_iff.1) hne h) hgap

/-- A trimmed text is read as a list of items exactly when the grammar derives it. -/
theorem itemList?_eq_some_iff {cs : List Char} (hcs : trim cs = cs) {names : List String} :
    itemList? cs = some names ↔ ItemList cs names := by
  rw [itemList?, hcs]
  constructor
  · intro h
    split at h
    · next inner =>
      split at h
      · next hlast =>
        obtain ⟨front, rfl⟩ := List.getLast?_eq_some_iff.1 hlast
        rw [List.dropLast_concat] at h
        exact itemList_of_parens h
      · simp at h
    · exact .bare (mapM_item?_eq_some_iff.1 h)
  · intro h
    cases h with
    | bare h =>
        split
        · exact absurd List.mem_cons_self (paren_notMem_of_separated h)
        · exact mapM_item?_eq_some_iff.2 h
    | parens h =>
        have hread := mapM_item?_eq_some_iff.2 h
        simp [dropTrailingBlank_of_mapM hread, hread]
    | @trailing text gap names h hgap =>
        have hread := mapM_item?_eq_some_iff.2 h
        have hcomma : ',' ∉ gap := fun hmem => absurd (hgap _ hmem) (by decide)
        have hcut : dropTrailingBlank (cutAt ',' (text ++ ',' :: gap)) = cutAt ',' text := by
          rw [cutAt_append, cutAt_of_notMem hcomma]
          exact dropTrailingBlank_append (cutWhere_ne_nil _ _) hgap
        show (if (text ++ ',' :: gap ++ [')']).getLast? = some ')' then
          (dropTrailingBlank (cutAt ',' (text ++ ',' :: gap ++ [')']).dropLast)).mapM item?
          else none) = some names
        rw [List.getLast?_concat, if_pos rfl, List.dropLast_concat, hcut, hread]

/-- Blanks in front of a list of items may be left out. -/
theorem ItemList.trimStart {text : List Char} {names : List String} (h : ItemList text names) :
    ItemList (trimStart text) names := by
  have hparen : isBlank '(' = false := by decide
  cases h with
  | bare h => exact .bare (h.trimStart fun _ _ h => h.trimStart)
  | parens h => simpa [Text.trimStart, hparen] using ItemList.parens h
  | trailing h hgap => simpa [Text.trimStart, hparen] using ItemList.trailing h hgap

/-! ### Keywords -/

/-- Behind a keyword and some space, the rest is left without the blanks in front of it. -/
theorem afterKeyword?_append (keyword : String) {a : List Char} (ha : IsSpace a)
    (rest : List Char) :
    afterKeyword? keyword (keyword.toList ++ a ++ rest) = some (trimStart rest) := by
  obtain ⟨c, a, rfl⟩ := List.exists_cons_of_ne_nil ha.1
  have hgap := isGap_cons.1 ha.2
  have hdrop : (keyword.toList ++ (c :: a) ++ rest).drop keyword.length = c :: (a ++ rest) := by
    rw [List.append_assoc, ← String.length_toList, List.drop_left]
    rfl
  have hstarts : keyword.toList.isPrefixOf (keyword.toList ++ (c :: a) ++ rest) = true := by
    rw [ List.isPrefixOf_iff_prefix, List.append_assoc]
    exact List.prefix_append _ _
  rw [afterKeyword?, if_pos hstarts, hdrop]
  simp [hgap.1, trimStart_append_of_isGap hgap.2]

/-- A text of which something is left behind a keyword starts with the keyword and some space. -/
theorem exists_of_afterKeyword? {keyword : String} {cs rest : List Char}
    (h : afterKeyword? keyword cs = some rest) :
    ∃ a, IsSpace a ∧ cs = keyword.toList ++ a ++ rest ∧ trimStart rest = rest := by
  rw [afterKeyword?] at h
  split at h
  · next hstarts =>
    obtain ⟨tail, rfl⟩ := List.isPrefixOf_iff_prefix.1 hstarts
    rw [← String.length_toList, List.drop_left] at h
    match tail with
    | [] => simp at h
    | c :: tail =>
        simp only at h
        split at h
        · next hc =>
          rw [Option.some.injEq] at h
          subst h
          refine ⟨c :: tail.takeWhile isBlank, ⟨by simp, ?_⟩, ?_, ?_⟩
          · exact isGap_cons.2 ⟨hc, isGap_takeWhile tail⟩
          · rw [List.append_assoc, List.cons_append, takeWhile_append_trimStart]
          · exact trimStart_of_head? isBlank_of_mem_head?_trimStart
        · simp at h
  · simp at h

/-- A text that starts with `from` does not start with `import`. -/
theorem afterKeyword?_import_from (cs : List Char) :
    afterKeyword? "import" ("from".toList ++ cs) = none := by
  rw [afterKeyword?, if_neg]
  rw [ List.isPrefixOf_iff_prefix]
  rintro ⟨rest, hrest⟩
  have hhead : some 'i' = some 'f' := congrArg List.head? hrest
  exact absurd hhead (by decide)

/-! ### Statements -/

theorem readModules?_eq_some_iff {cs : List Char} {s : Statement} :
    readModules? cs = some s ↔ ∃ paths, Separated (Aliased Path) cs paths ∧ s = .modules paths := by
  rw [readModules?, Option.map_eq_some_iff]
  constructor
  · rintro ⟨paths, h, rfl⟩
    exact ⟨paths, (mapM_cutAt_eq_some_iff (fun _ _ => modulePath?_eq_some_iff)
      fun _ _ => comma_notMem_of_aliased_path).1 h, rfl⟩
  · rintro ⟨paths, h, rfl⟩
    exact ⟨paths, (mapM_cutAt_eq_some_iff (fun _ _ => modulePath?_eq_some_iff)
      fun _ _ => comma_notMem_of_aliased_path).2 h, rfl⟩

/-- What is read behind `from` is a path, `import` and a list of items. -/
theorem exists_of_readItems? {cs : List Char} (hend : NoBlankEnd cs) {s : Statement}
    (h : readItems? cs = some s) : ∃ path b c text names, Path path ∧ IsSpace b ∧ IsSpace c ∧
      ItemList text names ∧ cs = path ++ b ++ "import".toList ++ c ++ text ∧
      s = .items (String.ofList path) names := by
  have hcs := List.takeWhile_append_dropWhile (p := (!isBlank ·)) (l := cs)
  rw [readItems?] at h
  split at h
  · simp at h
  · next d rest hdrop =>
    have hd : isBlank d = true := by
      have := List.head?_dropWhile_not (!isBlank ·) cs
      rw [hdrop] at this
      simpa using this
    split at h
    · next hpath =>
      obtain ⟨names, hnames, rfl⟩ := Option.map_eq_some_iff.1 h
      obtain ⟨text, htext, hitems⟩ := Option.bind_eq_some_iff.1 hnames
      obtain ⟨c, hc, hrest, hstart⟩ := exists_of_afterKeyword? htext
      have hwhole : cs = cs.takeWhile (!isBlank ·) ++ (d :: rest.takeWhile isBlank) ++
          "import".toList ++ c ++ text := by
        rw [List.append_assoc _ _ c, List.append_assoc _ _ text, ← hrest, List.append_assoc,
          List.cons_append, takeWhile_append_trimStart, ← hdrop, hcs]
      have htrim : trim text = text := by
        rw [hwhole] at hend
        rw [trim_of_noBlankEnd hend.of_append, hstart]
      exact ⟨_, _, c, text, names, isPath_iff.1 hpath,
        ⟨by simp, isGap_cons.2 ⟨hd, isGap_takeWhile rest⟩⟩, hc,
        (itemList?_eq_some_iff htrim).1 hitems, hwhole, rfl⟩
    · simp at h

/-- A path, `import` and a list of items are read behind `from`. -/
theorem readItems?_append {path b c text : List Char} {names : List String} (hpath : Path path)
    (hb : IsSpace b) (hc : IsSpace c) (h : ItemList text names) (hend : NoBlankEnd text) :
    readItems? (path ++ (b ++ ("import".toList ++ c ++ text))) =
      some (.items (String.ofList path) names) := by
  obtain ⟨d, b, rfl⟩ := List.exists_cons_of_ne_nil hb.1
  have hgap := isGap_cons.1 hb.2
  have hsolid : ∀ x ∈ path, (!isBlank x) = true := fun x hx => by
    rw [hpath.isSolid.2 x hx]
    rfl
  have himport : IsSolid "import".toList := by
    decide
  have htrim : trim (trimStart text) = trimStart text := by
    rw [trim_of_noBlankEnd, trimStart_of_head? isBlank_of_mem_head?_trimStart]
    refine NoBlankEnd.of_append (a := text.takeWhile isBlank) ?_
    rwa [takeWhile_append_trimStart]
  have htake : (path ++ (d :: b ++ ("import".toList ++ c ++ text))).takeWhile (!isBlank ·) =
      path := by
    rw [List.takeWhile_append_of_pos hsolid, List.cons_append,
      List.takeWhile_cons_of_neg (by simp [hgap.1]), List.append_nil]
  have hdrop : (path ++ (d :: b ++ ("import".toList ++ c ++ text))).dropWhile (!isBlank ·) =
      d :: (b ++ ("import".toList ++ c ++ text)) := by
    rw [List.dropWhile_append_of_pos hsolid, List.cons_append,
      List.dropWhile_cons_of_neg (by simp [hgap.1])]
  have hkey : afterKeyword? "import" (trimStart (b ++ ("import".toList ++ c ++ text))) =
      some (trimStart text) := by
    rw [trimStart_append_of_isGap hgap.2, List.append_assoc, trimStart_append_of_isSolid himport,
      ← List.append_assoc, afterKeyword?_append _ hc]
  rw [readItems?, htake, hdrop]
  simp only [isPath_iff.2 hpath, if_true, hkey, Option.bind_some,
    (itemList?_eq_some_iff htrim).2 h.trimStart, Option.map_some]

/-- A text that does not end in a blank is read as a statement exactly when the grammar derives it
as that statement. -/
theorem read?_eq_some_iff {cs : List Char} (hend : NoBlankEnd cs) {s : Statement} :
    Statement.read? cs = some s ↔ Derives cs s := by
  rw [Statement.read?]
  constructor
  · intro h
    split at h
    · next rest hkey =>
      obtain ⟨a, ha, rfl, -⟩ := exists_of_afterKeyword? hkey
      obtain ⟨paths, hpaths, rfl⟩ := readModules?_eq_some_iff.1 h
      exact .modules ha hpaths
    · obtain ⟨rest, hkey, hrest⟩ := Option.bind_eq_some_iff.1 h
      obtain ⟨a, ha, rfl, -⟩ := exists_of_afterKeyword? hkey
      obtain ⟨path, b, c, text, names, hpath, hb, hc, hitems, rfl, rfl⟩ :=
        exists_of_readItems? hend.of_append hrest
      have := Derives.items ha hpath hb hc hitems
      simpa only [List.append_assoc] using this
  · intro h
    cases h with
    | @modules a text paths ha h =>
        rw [afterKeyword?_append _ ha]
        exact readModules?_eq_some_iff.2
          ⟨paths, h.trimStart fun _ _ h => h.trimStart fun _ hp => hp.isSolid, rfl⟩
    | @items a path b c text names ha hpath hb hc h =>
        have hassoc : "from".toList ++ a ++ path ++ b ++ "import".toList ++ c ++ text =
            "from".toList ++ a ++ (path ++ (b ++ ("import".toList ++ c ++ text))) := by
          simp only [List.append_assoc]
        rw [hassoc, List.append_assoc _ a, afterKeyword?_import_from, ← List.append_assoc _ a,
          afterKeyword?_append _ ha, trimStart_append_of_isSolid hpath.isSolid]
        exact readItems?_append hpath hb hc h hend.of_append

/-! ### Records -/

/-- A derivable list of modules names at least one. -/
theorem paths_ne_nil_of_derives {cs : List Char} {paths : List String}
    (h : Derives cs (.modules paths)) : paths ≠ [] := by
  cases h with
  | modules _ h => exact h.ne_nil

/-- A derivable text has the records of the statement that it is. -/
theorem parse_of_derives {statement : String} {s : Statement} (source : String)
    (h : Derives (trim statement.toList) s) :
    parse statement source = s.records source (String.ofList (trim statement.toList)) := by
  rw [parse, (read?_eq_some_iff (noBlankEnd_trim _)).2 h]

/-- A text with a record is derivable. -/
theorem exists_derives_of_parse_ne_nil {statement source : String}
    (h : parse statement source ≠ []) : ∃ s, Derives (trim statement.toList) s := by
  cases hread : Statement.read? (trim statement.toList) with
  | none =>
      rw [parse, hread] at h
      exact absurd rfl h
  | some s => exact ⟨s, (read?_eq_some_iff (noBlankEnd_trim _)).1 hread⟩

/-- What a derivable list of modules names are paths. -/
theorem path_of_mem_separated {text : List Char} {paths : List String}
    (h : Separated (Aliased Path) text paths) : ∀ path ∈ paths, Path path.toList :=
  h.forall_mem fun _ _ => Aliased.name

/-- Every record of a derivable statement is new, and its name is a path. -/
theorem Derives.exists_newRecord {cs : List Char} {s : Statement} (h : Derives cs s)
    {source text : String} {r : ImportRecord} (hr : r ∈ s.records source text) :
    Path r.name.toList ∧ ∃ absolute items, absolute ≠ .relative ∧
      r = newRecord absolute source text r.name items := by
  cases h with
  | modules _ hlist =>
      obtain ⟨path, hpath, rfl⟩ := List.mem_map.1 hr
      exact ⟨path_of_mem_separated hlist path hpath, .module, [], by decide, rfl⟩
  | @items a path b c inner names _ hpath _ _ _ =>
      obtain rfl := List.mem_singleton.1 hr
      refine ⟨?_, .fromImport, names, by decide, rfl⟩
      rw [newRecord, String.toList_ofList]
      exact hpath

/-- Every record of a text is new, and its name is a path. -/
theorem exists_newRecord_of_mem_parse {statement source : String} {r : ImportRecord}
    (h : r ∈ parse statement source) :
    Path r.name.toList ∧ ∃ absolute text items, absolute ≠ .relative ∧
      r = newRecord absolute source text r.name items := by
  obtain ⟨s, hs⟩ := exists_derives_of_parse_ne_nil (List.ne_nil_of_mem h)
  rw [parse_of_derives source hs] at h
  obtain ⟨hpath, absolute, items, habsolute, hr⟩ := hs.exists_newRecord h
  exact ⟨hpath, absolute, _, items, habsolute, hr⟩

/-- **Statements are read by their grammar.**  A text has records exactly when it is derivable once
the blanks around it are dropped.  An `import` has one record for each path, in order and without
items; a `from … import` has a single record with all its items.  Their kind is not decided yet, and
a dot in front of the name is what makes a record relative. -/
theorem parse_eq_records_of_derives (statement source : String) :
    (parse statement source ≠ [] ↔ ∃ s, Derives (trim statement.toList) s) ∧
    (∀ paths, Derives (trim statement.toList) (.modules paths) →
      parse statement source = paths.map fun path =>
        { name := path
          kind := .unknown
          form := if path.toList.head? = some '.' then .relative else .module
          source := source
          statement := String.ofList (trim statement.toList)
          resolved := none
          items := [] }) ∧
    (∀ path names, Derives (trim statement.toList) (.items path names) →
      parse statement source =
        [{ name := path
           kind := .unknown
           form := if path.toList.head? = some '.' then .relative else .fromImport
           source := source
           statement := String.ofList (trim statement.toList)
           resolved := none
           items := names }]) := by
  refine ⟨⟨exists_derives_of_parse_ne_nil, ?_⟩, fun paths h => parse_of_derives source h,
    fun path names h => parse_of_derives source h⟩
  rintro ⟨s, h⟩
  rw [parse_of_derives source h]
  cases s with
  | modules paths => simpa [Statement.records] using paths_ne_nil_of_derives h
  | items path names => simp [Statement.records]

/-- One part that has not the right form spoils the whole statement. -/
example : parse "import a, b c" "m" = [] := by decide

end ModuleDeps.Import
