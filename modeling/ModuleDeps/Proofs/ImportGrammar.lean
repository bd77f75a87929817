/-
The grammar of import statements.

A statement is read by trimming, stripping keywords and cutting at commas and blanks.  What the
texts look like that are read in this way is said here by a grammar, one rule for each form:

* a path is dots, or identifiers joined by dots behind any number of dots;
* a name in a list may have an alias and blanks around it;
* `import` is followed by paths, `from` by a path, `import` and items, which may stand in
  parentheses, and then a comma may follow the last one.

Main definitions:

* `ModuleDeps.Import.Ident`, `ModuleDeps.Import.Path` — identifiers and paths;
* `ModuleDeps.Import.Aliased`, `ModuleDeps.Import.Item`, `ModuleDeps.Import.Separated` — what stands
  between commas, and lists of it;
* `ModuleDeps.Import.Derives` — **the grammar**: a text is derivable as a statement.

Main results:

* `ModuleDeps.Import.isIdent_iff`, `ModuleDeps.Import.isPath_iff` — the tests for identifiers and
  paths accept just these;
* `ModuleDeps.Import.aliased_iff` — what is read as a name that may have an alias.
-/

import Mathlib.Data.List.TakeWhile
import ModuleDeps.Import.Statement
import ModuleDeps.Proofs.Words

set_option relaxedAutoImplicit false
set_option autoImplicit false

namespace ModuleDeps.Import

open Text

/-! ### The grammar -/

/-- An identifier: an underscore or a letter, and then underscores, letters and numerals. -/
inductive Ident : List Char → Prop
  | mk {c : Char} {cs : List Char} (hc : c = '_' ∨ isLetter c = true)
      (hcs : ∀ x ∈ cs, x = '_' ∨ isLetter x = true ∨ isNumeral x = true) : Ident (c :: cs)

/-- A path: one or more dots, or identifiers joined by single dots behind any number of dots. -/
inductive Path : List Char → Prop
  | dots (n : Nat) : Path (List.replicate (n + 1) '.')
  | names (n : Nat) {ids : List (List Char)} (hne : ids ≠ []) (hids : ∀ id ∈ ids, Ident id) :
      Path (List.replicate n '.' ++ glue '.' ids)

/-- A name of the given kind with blanks around it, which may have an alias: the text and the
name. -/
inductive Aliased (P : List Char → Prop) : List Char → String → Prop
  | plain {a name b : List Char} (ha : IsGap a) (hname : P name) (hb : IsGap b) :
      Aliased P (a ++ name ++ b) (String.ofList name)
  | renamed {a name b c other d : List Char} (ha : IsGap a) (hname : P name) (hb : IsSpace b)
      (hc : IsSpace c) (hother : Ident other) (hd : IsGap d) :
      Aliased P (a ++ name ++ b ++ ['a', 's'] ++ c ++ other ++ d) (String.ofList name)

/-- One of the items behind `from … import`: a star or an identifier, which may have an alias. -/
inductive Item : List Char → String → Prop
  | star {a b : List Char} (ha : IsGap a) (hb : IsGap b) : Item (a ++ ['*'] ++ b) "*"
  | name {text : List Char} {name : String} (h : Aliased Ident text name) : Item text name

/-- Texts of a kind, separated by commas: the whole text and what the parts are. -/
inductive Separated (P : List Char → String → Prop) : List Char → List String → Prop
  | last {text : List Char} {x : String} (h : P text x) : Separated P text [x]
  | cons {text rest : List Char} {x : String} {xs : List String} (h : P text x)
      (hrest : Separated P rest xs) : Separated P (text ++ ',' :: rest) (x :: xs)

/-- A list of items: bare, or in parentheses, where a comma may follow the last item. -/
inductive ItemList : List Char → List String → Prop
  | bare {text : List Char} {names : List String} (h : Separated Item text names) :
      ItemList text names
  | parens {text : List Char} {names : List String} (h : Separated Item text names) :
      ItemList ('(' :: text ++ [')']) names
  | trailing {text gap : List Char} {names : List String} (h : Separated Item text names)
      (hgap : IsGap gap) : ItemList ('(' :: (text ++ ',' :: gap) ++ [')']) names

/-- **The grammar** of import statements: the text and what it says. -/
inductive Derives : List Char → Statement → Prop
  | modules {a text : List Char} {paths : List String} (ha : IsSpace a)
      (h : Separated (Aliased Path) text paths) :
      Derives ("import".toList ++ a ++ text) (.modules paths)
  | items {a path b c text : List Char} {names : List String} (ha : IsSpace a) (hpath : Path path)
      (hb : IsSpace b) (hc : IsSpace c) (h : ItemList text names) :
      Derives ("from".toList ++ a ++ path ++ b ++ "import".toList ++ c ++ text)
        (.items (String.ofList path) names)

/-! ### Identifiers and paths -/

/-- A code point that some interval holds lies in an interval of the list. -/
theorem exists_range_of_holdsCode {ranges : List CodeRange} {n : Nat}
    (h : CodeRange.holdsCode ranges n = true) : ∃ r ∈ ranges, r.1 ≤ n ∧ n ≤ r.2 := by
  induction ranges with
  | nil => simp [CodeRange.holdsCode] at h
  | cons r ranges ih =>
      rw [CodeRange.holdsCode] at h
      split at h
      · simp at h
      · split at h
        · exact ⟨r, List.mem_cons_self, by omega, by omega⟩
        · obtain ⟨r', hr', hn⟩ := ih h
          exact ⟨r', List.mem_cons_of_mem _ hr', hn⟩

/-- The blank characters are neither letters nor numerals, one by one. -/
theorem blankRanges_disjoint : ∀ r ∈ blankRanges, ∀ n ∈ List.range' r.1 (r.2 - r.1 + 1),
    CodeRange.holdsCode letterRanges n = false ∧ CodeRange.holdsCode numeralRanges n = false := by
  decide +kernel

/-- No blank is part of an identifier. -/
theorem isIdentRest_of_isBlank {c : Char} (h : isBlank c = true) : isIdentRest c = false := by
  obtain ⟨r, hr, hle, hge⟩ := exists_range_of_holdsCode h
  obtain ⟨hletter, hnumeral⟩ := blankRanges_disjoint r hr c.toNat
    (List.mem_range'_1.2 ⟨hle, by omega⟩)
  have hne : c ≠ '_' := by
    rintro rfl
    exact absurd h (by decide)
  simp [isIdentRest, isLetter, isNumeral, CodeRange.holds, hletter, hnumeral, hne]

theorem isIdentRest_of_isIdentStart {c : Char} (h : isIdentStart c = true) :
    isIdentRest c = true := by
  rw [isIdentStart] at h
  rw [isIdentRest, h, Bool.true_or]

/-- The test for identifiers accepts the identifiers. -/
theorem isIdent_iff {cs : List Char} : isIdent cs = true ↔ Ident cs := by
  constructor
  · intro h
    match cs with
    | [] => simp [isIdent] at h
    | c :: cs =>
        simp only [isIdent, isIdentStart, isIdentRest, Bool.and_eq_true, Bool.or_eq_true,
          beq_iff_eq, List.all_eq_true, or_assoc] at h
        exact ⟨h.1, h.2⟩
  · rintro ⟨hc, hcs⟩
    simp only [isIdent, isIdentStart, isIdentRest, Bool.and_eq_true, Bool.or_eq_true,
      beq_iff_eq, List.all_eq_true, or_assoc]
    exact ⟨hc, hcs⟩

instance (cs : List Char) : Decidable (Ident cs) :=
  decidable_of_iff (isIdent cs = true) isIdent_iff

/-- All characters of an identifier may continue one. -/
theorem Ident.all {cs : List Char} (h : Ident cs) : ∀ c ∈ cs, isIdentRest c = true := by
  have hi := isIdent_iff.2 h
  cases h with
  | @mk c cs hc hcs =>
      simp only [isIdent, Bool.and_eq_true, List.all_eq_true] at hi
      intro x hx
      rcases List.mem_cons.1 hx with rfl | hx
      · exact isIdentRest_of_isIdentStart hi.1
      · exact hi.2 x hx

theorem Ident.ne_nil {cs : List Char} (h : Ident cs) : cs ≠ [] := by
  cases h
  simp

/-- A character that may not continue an identifier is in none. -/
theorem Ident.notMem {cs : List Char} (h : Ident cs) {c : Char} (hc : isIdentRest c = false) :
    c ∉ cs := by
  intro hmem
  have := h.all c hmem
  rw [hc] at this
  exact absurd this (by decide)

theorem Ident.isSolid {cs : List Char} (h : Ident cs) : IsSolid cs := by
  refine ⟨h.ne_nil, fun c hc => ?_⟩
  by_contra hb
  rw [Bool.not_eq_false] at hb
  exact h.notMem (isIdentRest_of_isBlank hb) hc

/-- A path is made of dots and characters of identifiers. -/
theorem Path.all {cs : List Char} (h : Path cs) : ∀ c ∈ cs, c = '.' ∨ isIdentRest c = true := by
  cases h with
  | dots n =>
      intro c hc
      exact Or.inl (List.eq_of_mem_replicate hc)
  | @names n ids hne hids =>
      intro c hc
      rcases List.mem_append.1 hc with hc | hc
      · exact Or.inl (List.eq_of_mem_replicate hc)
      · rcases mem_glue hc with rfl | ⟨id, hid, hc⟩
        · exact Or.inl rfl
        · exact Or.inr ((hids id hid).all c hc)

theorem Path.ne_nil {cs : List Char} (h : Path cs) : cs ≠ [] := by
  cases h with
  | dots n => simp
  | @names n ids hne hids =>
      obtain ⟨id, ids, rfl⟩ := List.exists_cons_of_ne_nil hne
      have hid := (hids id List.mem_cons_self).ne_nil
      obtain ⟨rest, hrest⟩ := exists_glue_cons '.' id ids
      intro h
      rw [hrest, List.append_eq_nil_iff, List.append_eq_nil_iff] at h
      exact hid h.2.1

theorem Path.notMem {cs : List Char} (h : Path cs) {c : Char} (hc : isIdentRest c = false)
    (hdot : c ≠ '.') : c ∉ cs := by
  intro hmem
  rcases h.all c hmem with hc' | hc'
  · exact hdot hc'
  · rw [hc] at hc'
    exact absurd hc' (by decide)

theorem Path.isSolid {cs : List Char} (h : Path cs) : IsSolid cs := by
  refine ⟨h.ne_nil, fun c hc => ?_⟩
  by_contra hb
  rw [Bool.not_eq_false] at hb
  refine h.notMem (isIdentRest_of_isBlank hb) ?_ hc
  rintro rfl
  exact absurd hb (by decide)

/-- Identifiers joined by dots do not start with a dot. -/
theorem exists_glue_eq_cons {ids : List (List Char)} (hne : ids ≠ [])
    (hids : ∀ id ∈ ids, Ident id) : ∃ c cs, glue '.' ids = c :: cs ∧ c ≠ '.' := by
  obtain ⟨id, ids, rfl⟩ := List.exists_cons_of_ne_nil hne
  have hid := hids id List.mem_cons_self
  obtain ⟨rest, hrest⟩ := exists_glue_cons '.' id ids
  obtain ⟨c, cs, rfl⟩ := List.exists_cons_of_ne_nil hid.ne_nil
  refine ⟨c, cs ++ rest, hrest, ?_⟩
  rintro rfl
  exact hid.notMem (by decide) List.mem_cons_self

/-- The test for paths accepts the paths. -/
theorem isPath_iff {cs : List Char} : isPath cs = true ↔ Path cs := by
  have hdots : cs.takeWhile (· == '.') = List.replicate (cs.takeWhile (· == '.')).length '.' :=
    List.eq_replicate_of_mem fun c hc => by simpa using List.mem_takeWhile_imp hc
  have hcs := List.takeWhile_append_dropWhile (p := (· == '.')) (l := cs)
  constructor
  · intro h
    rw [isPath] at h
    split at h
    · next hrest =>
      rw [hrest, List.append_nil, hdots] at hcs
      have hlen : (cs.takeWhile (· == '.')).length ≠ 0 := by
        intro h0
        rw [h0, List.replicate_zero] at hcs
        simp [← hcs] at h
      obtain ⟨n, hn⟩ := Nat.exists_eq_succ_of_ne_zero hlen
      rw [← hcs, hn]
      exact .dots n
    · next hrest =>
      rw [← hcs, hdots, ← glue_cutAt '.' (cs.dropWhile (· == '.'))]
      refine .names _ (cutWhere_ne_nil _ _) fun id hid => isIdent_iff.1 ?_
      exact List.all_eq_true.1 h id hid
  · intro h
    cases h with
    | dots n => simp [isPath]
    | @names n ids hne hids =>
        obtain ⟨c, rest, hglue, hc⟩ := exists_glue_eq_cons hne hids
        have hcut : cutAt '.' (c :: rest) = ids := by
          rw [← hglue]
          exact cutAt_glue hne fun id hid => (hids id hid).notMem (by decide)
        have hdrop : (c :: rest).dropWhile (· == '.') = c :: rest := by simp [hc]
        rw [isPath, List.dropWhile_append_of_pos (by simp), hglue, hdrop]
        simp only [hcut, List.all_eq_true]
        exact fun id hid => isIdent_iff.2 (hids id hid)

/-! ### Names with aliases -/

/-- The part of a text in front of an alias, if the text has the form for it. -/
theorem beforeAlias?_eq_some_iff {cs name : List Char} :
    beforeAlias? cs = some name ↔
      words cs = [name] ∨ ∃ other, words cs = [name, ['a', 's'], other] ∧ Ident other := by
  rw [beforeAlias?]
  split
  · next n h => simp [h]
  · next n other h =>
    rw [h]
    constructor
    · intro hn
      split at hn
      · next ho => exact Or.inr ⟨other, by simpa using hn, isIdent_iff.1 ho⟩
      · simp at hn
    · rintro (hn | ⟨x, hn, hx⟩)
      · simp at hn
      · simp only [List.cons.injEq, and_true, true_and] at hn
        obtain ⟨rfl, rfl⟩ := hn
        rw [if_pos (isIdent_iff.2 hx)]
  · next h₁ h₂ =>
    simp only [reduceCtorEq, false_iff, not_or, not_exists, not_and]
    exact ⟨fun h => h₁ name h, fun other h => absurd h (h₂ name other)⟩

/-- The texts with a name, the word `as` and another name. -/
theorem words_eq_renamed_iff {cs name other : List Char} :
    words cs = [name, ['a', 's'], other] ↔ ∃ a b c d,
      cs = a ++ name ++ b ++ ['a', 's'] ++ c ++ other ++ d ∧ IsGap a ∧ IsSolid name ∧ IsSpace b ∧
      IsSpace c ∧ IsSolid other ∧ IsGap d := by
  rw [words_eq_cons_cons_iff]
  constructor
  · rintro ⟨a, b, rest, rfl, ha, hname, hb, hrest, hwords⟩
    obtain ⟨e, c, rest₂, rfl, he, -, hc, hrest₂, hwords₂⟩ := words_eq_cons_cons_iff.1 hwords
    obtain ⟨f, d, rfl, hf, hother, hd⟩ := words_eq_singleton_iff.1 hwords₂
    -- the gaps in front of the second and the third word belong to the spaces before them
    simp only [List.append_assoc] at hrest hrest₂
    obtain rfl : e = [] := he.eq_nil_of_head? hrest
    obtain rfl : f = [] := hf.eq_nil_of_head? hrest₂
    exact ⟨a, b, c, d, by simp, ha, hname, hb, hc, hother, hd⟩
  · rintro ⟨a, b, c, d, rfl, ha, hname, hb, hc, hother, hd⟩
    refine ⟨a, b, ['a', 's'] ++ c ++ other ++ d, by simp, ha, hname, hb, ?_, ?_⟩
    · intro x hx
      obtain rfl : 'a' = x := by simpa using hx
      decide
    · have has : IsSolid ['a', 's'] := by
        decide
      have hwords : words (other ++ d) = [other] :=
        words_eq_singleton_iff.2 ⟨[], d, rfl, isGap_nil, hother, hd⟩
      rw [List.append_assoc, List.append_assoc, words_append_of_isSolid has (hc.endsWord_append _),
        words_append_of_isGap hc.2, hwords]

section Names

variable {P : List Char → Prop} {p : List Char → Bool}

/-- A name of a kind is read off a text exactly when the grammar derives it, for a kind of solid
names that is tested by `p`. -/
theorem aliased_iff (hp : ∀ name, p name = true ↔ P name) (hP : ∀ name, P name → IsSolid name)
    {cs : List Char} {x : String} :
    ((beforeAlias? cs).bind fun name => if p name then some (String.ofList name) else none) = some x
      ↔ Aliased P cs x := by
  rw [Option.bind_eq_some_iff]
  constructor
  · rintro ⟨name, hname, hx⟩
    split at hx
    · next h =>
      rw [Option.some.injEq] at hx
      rw [← hx]
      rcases beforeAlias?_eq_some_iff.1 hname with hw | ⟨other, hw, ho⟩
      · obtain ⟨a, b, rfl, ha, -, hb⟩ := words_eq_singleton_iff.1 hw
        exact .plain ha ((hp name).1 h) hb
      · obtain ⟨a, b, c, d, rfl, ha, -, hb, hc, -, hd⟩ := words_eq_renamed_iff.1 hw
        exact .renamed ha ((hp name).1 h) hb hc ho hd
    · simp at hx
  · intro h
    cases h with
    | @plain a name b ha hname hb =>
        refine ⟨name, beforeAlias?_eq_some_iff.2 (Or.inl ?_), if_pos ((hp name).2 hname)⟩
        exact words_eq_singleton_iff.2 ⟨a, b, rfl, ha, hP name hname, hb⟩
    | @renamed a name b c other d ha hname hb hc hother hd =>
        refine ⟨name, beforeAlias?_eq_some_iff.2 (Or.inr ⟨other, ?_, hother⟩),
          if_pos ((hp name).2 hname)⟩
        exact words_eq_renamed_iff.2
          ⟨a, b, c, d, rfl, ha, hP name hname, hb, hc, hother.isSolid, hd⟩

theorem Aliased.name {cs : List Char} {x : String} (h : Aliased P cs x) : P x.toList := by
  cases h with
  | plain _ hname _ => rwa [String.toList_ofList]
  | renamed _ hname _ _ _ _ => rwa [String.toList_ofList]

/-- Blanks in front of a name with an alias may be left out. -/
theorem Aliased.trimStart (hP : ∀ name, P name → IsSolid name) {cs : List Char} {x : String}
    (h : Aliased P cs x) : Aliased P (trimStart cs) x := by
  cases h with
  | @plain a name b ha hname hb =>
      rw [List.append_assoc, trimStart_append_of_isGap ha,
        trimStart_append_of_isSolid (hP name hname)]
      exact .plain isGap_nil hname hb
  | @renamed a name b c other d ha hname hb hc hother hd =>
      simp only [List.append_assoc]
      rw [trimStart_append_of_isGap ha, trimStart_append_of_isSolid (hP name hname)]
      simp only [← List.append_assoc]
      exact .renamed isGap_nil hname hb hc hother hd

/-- A character that is neither blank nor part of names does not occur in a name with an alias. -/
theorem Aliased.notMem {c : Char} (hblank : isBlank c = false) (hident : isIdentRest c = false)
    (hP : ∀ name, P name → c ∉ name) {cs : List Char} {x : String} (h : Aliased P cs x) :
    c ∉ cs := by
  have hgap : ∀ {a}, IsGap a → c ∉ a := by
    intro a ha hmem
    rw [ha c hmem] at hblank
    exact absurd hblank (by decide)
  have has : c ∉ ['a', 's'] := by
    intro hmem
    simp only [List.mem_cons, List.not_mem_nil, or_false] at hmem
    rcases hmem with rfl | rfl
    · exact absurd hident (by decide)
    · exact absurd hident (by decide)
  cases h with
  | @plain a name b ha hname hb => simp [hgap ha, hP name hname, hgap hb]
  | @renamed a name b d other e ha hname hb hd hother he =>
      simp only [List.mem_append, not_or]
      exact ⟨⟨⟨⟨⟨⟨hgap ha, hP name hname⟩, hgap hb.2⟩, has⟩, hgap hd.2⟩, hother.notMem hident⟩,
        hgap he⟩

end Names

end ModuleDeps.Import
