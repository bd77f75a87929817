/-
Blanks and words, said by how a text is put together.

Trimming and cutting into words are computed from left to right.  What they find is said here by
decompositions: a text with a first word is a gap, the word and a rest that does not go on with the
word, and a text is its trimmed form between two gaps.

Main definitions:

* `ModuleDeps.Text.IsGap`, `ModuleDeps.Text.IsSpace` — any number of blanks, and at least one;
* `ModuleDeps.Text.IsSolid` — at least one character and no blank.

Main results:

* `ModuleDeps.Text.words_eq_singleton_iff`, `ModuleDeps.Text.words_eq_cons_cons_iff` — the texts
  with one word, and those with a first and further words;
* `ModuleDeps.Text.trim_eq_iff` — the texts with a given trimmed form;
* `ModuleDeps.Text.cutWhere_append` — cutting at a character inside a text.
-/

import Mathlib.Data.List.TakeWhile
import ModuleDeps.Text.Pieces

set_option relaxedAutoImplicit false
set_option autoImplicit false

namespace ModuleDeps.Text

/-! ### Gaps and solid texts -/

/-- Any number of blanks. -/
def IsGap (cs : List Char) : Prop :=
  ∀ c ∈ cs, isBlank c = true

/-- At least one blank, and nothing else. -/
def IsSpace (cs : List Char) : Prop :=
  cs ≠ [] ∧ IsGap cs

/-- At least one character, and no blank. -/
def IsSolid (cs : List Char) : Prop :=
  cs ≠ [] ∧ ∀ c ∈ cs, isBlank c = false

/-- The text does not start with a character that is not blank: nothing in it goes on with a word in
front of it. -/
def EndsWord (cs : List Char) : Prop :=
  ∀ c ∈ cs.head?, isBlank c = true

-- the tests run along the text; a search for an instance may find one that runs over all characters
instance (cs : List Char) : Decidable (IsGap cs) :=
  decidable_of_iff (cs.all isBlank = true) List.all_eq_true

instance (cs : List Char) : Decidable (IsSpace cs) :=
  inferInstanceAs (Decidable (cs ≠ [] ∧ IsGap cs))

instance (cs : List Char) : Decidable (IsSolid cs) :=
  decidable_of_iff (cs ≠ [] ∧ cs.all (!isBlank ·) = true) (by simp [IsSolid])

@[simp] theorem isGap_nil : IsGap [] := by
  simp [IsGap]

@[simp] theorem isGap_cons {c : Char} {cs : List Char} :
    IsGap (c :: cs) ↔ isBlank c = true ∧ IsGap cs := by
  simp [IsGap]

theorem isGap_takeWhile (cs : List Char) : IsGap (cs.takeWhile isBlank) :=
  fun _ hc => List.mem_takeWhile_imp hc

@[simp] theorem endsWord_nil : EndsWord [] := by
  simp [EndsWord]

@[simp] theorem endsWord_cons {c : Char} {cs : List Char} :
    EndsWord (c :: cs) ↔ isBlank c = true := by
  simp [EndsWord]

theorem IsGap.endsWord {cs : List Char} (h : IsGap cs) : EndsWord cs := by
  cases cs with
  | nil => simp
  | cons c cs => simpa using (isGap_cons.1 h).1

/-- A gap in front of a text that does not start with a blank is empty. -/
theorem IsGap.eq_nil_of_head? {a b : List Char} (ha : IsGap a)
    (h : ∀ c ∈ (a ++ b).head?, isBlank c = false) : a = [] := by
  cases a with
  | nil => rfl
  | cons c a =>
      have hc := h c (by simp)
      rw [(isGap_cons.1 ha).1] at hc
      exact absurd hc (by decide)

theorem IsSpace.endsWord_append {a : List Char} (h : IsSpace a) (b : List Char) :
    EndsWord (a ++ b) := by
  cases a with
  | nil => exact absurd rfl h.1
  | cons c cs => simpa using (isGap_cons.1 h.2).1

/-! ### Trimming at the start -/

/-- A text is a gap and what is left when it is trimmed at the start. -/
theorem takeWhile_append_trimStart (cs : List Char) :
    cs.takeWhile isBlank ++ trimStart cs = cs :=
  List.takeWhile_append_dropWhile

/-- A gap in front of a text is trimmed. -/
theorem trimStart_append_of_isGap {a : List Char} (h : IsGap a) (cs : List Char) :
    trimStart (a ++ cs) = trimStart cs :=
  List.dropWhile_append_of_pos h

/-- A text that starts with a solid one is not trimmed at the start. -/
theorem trimStart_append_of_isSolid {w : List Char} (h : IsSolid w) (cs : List Char) :
    trimStart (w ++ cs) = w ++ cs := by
  cases w with
  | nil => exact absurd rfl h.1
  | cons c w => simp [trimStart, h.2 c List.mem_cons_self]

/-- What is left of a text trimmed at the start does not start with a blank. -/
theorem isBlank_of_mem_head?_trimStart {cs : List Char} (c : Char)
    (hc : c ∈ (trimStart cs).head?) : isBlank c = false := by
  have := List.head?_dropWhile_not isBlank cs
  rw [trimStart] at hc
  rw [Option.mem_def.1 hc] at this
  simpa using this

@[simp] theorem trimStart_eq_nil_iff {cs : List Char} : trimStart cs = [] ↔ IsGap cs :=
  List.dropWhile_eq_nil_iff

/-- A text that does not start with a blank is not trimmed at the start. -/
theorem trimStart_of_head? {cs : List Char} (h : ∀ c ∈ cs.head?, isBlank c = false) :
    trimStart cs = cs := by
  cases cs with
  | nil => rfl
  | cons c cs => simp [trimStart, h c (by simp)]

/-! ### Trimming at both ends -/

/-- The text does not end with a blank. -/
def NoBlankEnd (cs : List Char) : Prop :=
  ∀ c ∈ cs.getLast?, isBlank c = false

theorem trimEnd_eq_reverse (cs : List Char) : trimEnd cs = (trimStart cs.reverse).reverse := rfl

theorem trimEnd_of_noBlankEnd {cs : List Char} (h : NoBlankEnd cs) : trimEnd cs = cs := by
  rw [trimEnd_eq_reverse, trimStart_of_head?, List.reverse_reverse]
  rwa [List.head?_reverse]

theorem noBlankEnd_trimEnd (cs : List Char) : NoBlankEnd (trimEnd cs) := by
  rw [NoBlankEnd, trimEnd_eq_reverse, List.getLast?_reverse]
  exact isBlank_of_mem_head?_trimStart

theorem noBlankEnd_trim (cs : List Char) : NoBlankEnd (trim cs) :=
  noBlankEnd_trimEnd _

/-- An end of a text ends as the text does. -/
theorem NoBlankEnd.of_append {a b : List Char} (h : NoBlankEnd (a ++ b)) : NoBlankEnd b := by
  intro c hc
  refine h c ?_
  rw [Option.mem_def] at hc ⊢
  rw [List.getLast?_append, hc, Option.some_or]

/-- A text that ends with a solid one does not end with a blank. -/
theorem IsSolid.noBlankEnd_append {w : List Char} (h : IsSolid w) (a : List Char) :
    NoBlankEnd (a ++ w) := by
  intro c hc
  rw [List.getLast?_append, List.getLast?_eq_some_getLast h.1, Option.some_or,
    Option.mem_some] at hc
  exact h.2 c (hc ▸ List.getLast_mem h.1)

/-- A text without a blank at its end is only trimmed at its start. -/
theorem trim_of_noBlankEnd {cs : List Char} (h : NoBlankEnd cs) : trim cs = trimStart cs := by
  refine trimEnd_of_noBlankEnd (NoBlankEnd.of_append (a := cs.takeWhile isBlank) ?_)
  rwa [takeWhile_append_trimStart]

/-- A text with solid ends has nothing to trim. -/
theorem trim_of_isSolid_ends {a b : List Char} (ha : IsSolid a) (hb : IsSolid b)
    (middle : List Char) : trim (a ++ middle ++ b) = a ++ middle ++ b := by
  rw [trim_of_noBlankEnd (hb.noBlankEnd_append _), List.append_assoc,
    trimStart_append_of_isSolid ha]

/-- A text is its trimmed form between two gaps. -/
theorem exists_trim (cs : List Char) : ∃ a b, IsGap a ∧ IsGap b ∧ cs = a ++ trim cs ++ b := by
  refine ⟨cs.takeWhile isBlank, ((trimStart cs).reverse.takeWhile isBlank).reverse,
    isGap_takeWhile cs, ?_, ?_⟩
  · intro c hc
    exact isGap_takeWhile _ c (List.mem_reverse.1 hc)
  · have hend : trim cs ++ ((trimStart cs).reverse.takeWhile isBlank).reverse = trimStart cs := by
      rw [trim, trimEnd_eq_reverse, ← List.reverse_append, takeWhile_append_trimStart,
        List.reverse_reverse]
    rw [List.append_assoc, hend, takeWhile_append_trimStart]

/-- A solid text between two gaps is their trimmed form. -/
theorem trim_of_isSolid {a w b : List Char} (ha : IsGap a) (hw : IsSolid w) (hb : IsGap b) :
    trim (a ++ w ++ b) = w := by
  have hw' : IsSolid w.reverse := ⟨by simpa using hw.1, fun c hc => hw.2 c (List.mem_reverse.1 hc)⟩
  have hb' : IsGap b.reverse := fun c hc => hb c (List.mem_reverse.1 hc)
  rw [trim, List.append_assoc, trimStart_append_of_isGap ha, trimStart_append_of_isSolid hw,
    trimEnd_eq_reverse, List.reverse_append, trimStart_append_of_isGap hb']
  have := trimStart_append_of_isSolid hw' []
  rw [List.append_nil] at this
  rw [this, List.reverse_reverse]

/-- The texts whose trimmed form is a given solid one. -/
theorem trim_eq_iff {cs w : List Char} (hw : IsSolid w) :
    trim cs = w ↔ ∃ a b, IsGap a ∧ IsGap b ∧ cs = a ++ w ++ b := by
  constructor
  · rintro rfl
    exact exists_trim cs
  · rintro ⟨a, b, ha, hb, rfl⟩
    exact trim_of_isSolid ha hw hb

/-! ### Words -/

/-- A blank in front of a text adds no word. -/
theorem words_cons_of_isBlank {c : Char} (hc : isBlank c = true) (cs : List Char) :
    words (c :: cs) = words cs := by
  simp [words, cutWhere_cons, cutStep, hc]

/-- A gap in front of a text adds no word. -/
theorem words_append_of_isGap {a : List Char} (ha : IsGap a) (cs : List Char) :
    words (a ++ cs) = words cs := by
  induction a with
  | nil => rfl
  | cons c a ih =>
      rw [isGap_cons] at ha
      rw [List.cons_append, words_cons_of_isBlank ha.1, ih ha.2]

theorem words_trimStart (cs : List Char) : words (trimStart cs) = words cs := by
  rw [← words_append_of_isGap (isGap_takeWhile cs), takeWhile_append_trimStart]

/-- A solid text that the rest does not go on with is the first word. -/
theorem words_append_of_isSolid {w rest : List Char} (hw : IsSolid w) (hr : EndsWord rest) :
    words (w ++ rest) = w :: words rest := by
  cases rest with
  | nil => simp [words, cutWhere_eq_singleton hw.2, hw.1]
  | cons c rest =>
      rw [endsWord_cons] at hr
      rw [words_cons_of_isBlank hr, words, cutWhere_append_cons hw.2 hr,
        List.filter_cons_of_pos (by simpa using hw.1), words]

/-- A gap has no word. -/
theorem words_of_isGap {cs : List Char} (h : IsGap cs) : words cs = [] := by
  have := words_append_of_isGap h []
  rwa [List.append_nil] at this

/-- A text is a gap, or a gap, a word and a rest that does not go on with the word. -/
theorem isGap_or_exists_word (cs : List Char) :
    IsGap cs ∨ ∃ a w rest, cs = a ++ w ++ rest ∧ IsGap a ∧ IsSolid w ∧ EndsWord rest := by
  by_cases h : trimStart cs = []
  · exact Or.inl (trimStart_eq_nil_iff.1 h)
  · refine Or.inr ⟨cs.takeWhile isBlank, (trimStart cs).takeWhile (!isBlank ·),
      (trimStart cs).dropWhile (!isBlank ·), ?_, isGap_takeWhile cs, ⟨?_, ?_⟩, ?_⟩
    · rw [List.append_assoc, List.takeWhile_append_dropWhile, takeWhile_append_trimStart]
    · obtain ⟨c, rest, hc⟩ := List.exists_cons_of_ne_nil h
      have hb : isBlank c = false :=
        isBlank_of_mem_head?_trimStart c (Option.mem_def.2 (by rw [hc]; rfl))
      simp [hc, hb]
    · intro c hc
      simpa using List.mem_takeWhile_imp hc
    · intro c hc
      have := List.head?_dropWhile_not (!isBlank ·) (trimStart cs)
      rw [Option.mem_def.1 hc] at this
      simpa using this

/-- The texts with a given first word and given further words. -/
theorem words_eq_cons_iff {cs w : List Char} {ws : List (List Char)} :
    words cs = w :: ws ↔ ∃ a rest, cs = a ++ w ++ rest ∧ IsGap a ∧ IsSolid w ∧ EndsWord rest ∧
      words rest = ws := by
  constructor
  · intro h
    rcases isGap_or_exists_word cs with hgap | ⟨a, v, rest, rfl, ha, hv, hr⟩
    · rw [words_of_isGap hgap] at h
      simp at h
    · rw [List.append_assoc, words_append_of_isGap ha, words_append_of_isSolid hv hr,
        List.cons.injEq] at h
      obtain ⟨rfl, hws⟩ := h
      exact ⟨a, rest, rfl, ha, hv, hr, hws⟩
  · rintro ⟨a, rest, rfl, ha, hw, hr, rfl⟩
    rw [List.append_assoc, words_append_of_isGap ha, words_append_of_isSolid hw hr]

theorem words_eq_nil_iff {cs : List Char} : words cs = [] ↔ IsGap cs := by
  refine ⟨fun h => ?_, words_of_isGap⟩
  rcases isGap_or_exists_word cs with hgap | ⟨a, v, rest, rfl, ha, hv, hr⟩
  · exact hgap
  · rw [List.append_assoc, words_append_of_isGap ha, words_append_of_isSolid hv hr] at h
    simp at h

/-- The texts with one word: it stands between two gaps. -/
theorem words_eq_singleton_iff {cs w : List Char} :
    words cs = [w] ↔ ∃ a b, cs = a ++ w ++ b ∧ IsGap a ∧ IsSolid w ∧ IsGap b := by
  rw [words_eq_cons_iff]
  constructor
  · rintro ⟨a, b, hcs, ha, hw, -, hb⟩
    exact ⟨a, b, hcs, ha, hw, words_eq_nil_iff.1 hb⟩
  · rintro ⟨a, b, hcs, ha, hw, hb⟩
    exact ⟨a, b, hcs, ha, hw, hb.endsWord, words_of_isGap hb⟩

/-- The texts with at least two words: there is space behind the first one. -/
theorem words_eq_cons_cons_iff {cs w v : List Char} {ws : List (List Char)} :
    words cs = w :: v :: ws ↔ ∃ a b rest, cs = a ++ w ++ b ++ rest ∧ IsGap a ∧ IsSolid w ∧
      IsSpace b ∧ (∀ c ∈ rest.head?, isBlank c = false) ∧ words rest = v :: ws := by
  rw [words_eq_cons_iff]
  constructor
  · rintro ⟨a, rest, rfl, ha, hw, hr, hws⟩
    refine ⟨a, rest.takeWhile isBlank, trimStart rest, ?_, ha, hw, ⟨?_, isGap_takeWhile rest⟩,
      isBlank_of_mem_head?_trimStart, ?_⟩
    · rw [List.append_assoc (a ++ w), takeWhile_append_trimStart]
    · cases rest with
      | nil => simp [words] at hws
      | cons c rest => simp [endsWord_cons.1 hr]
    · rw [words_trimStart, hws]
  · rintro ⟨a, b, rest, rfl, ha, hw, hb, -, hws⟩
    refine ⟨a, b ++ rest, by simp, ha, hw, hb.endsWord_append rest, ?_⟩
    rw [words_append_of_isGap hb.2, hws]

/-! ### Cutting -/

/-- A text that is cut inside has the pieces of its two parts. -/
theorem cutWhere_append {isCut : Char → Bool} {c : Char} (hc : isCut c = true)
    (a b : List Char) : cutWhere isCut (a ++ c :: b) = cutWhere isCut a ++ cutWhere isCut b := by
  induction a with
  | nil => simp [cutWhere_cons, cutStep, hc]
  | cons d a ih =>
      rw [List.cons_append, cutWhere_cons, cutWhere_cons, ih]
      obtain ⟨piece, rest, hp⟩ := List.exists_cons_of_ne_nil (cutWhere_ne_nil isCut a)
      rw [hp]
      by_cases hd : isCut d = true
      · simp [cutStep, hd]
      · simp [cutStep, hd]

theorem cutAt_append (sep : Char) (a b : List Char) :
    cutAt sep (a ++ sep :: b) = cutAt sep a ++ cutAt sep b :=
  @cutWhere_append (· == sep) sep (beq_self_eq_true sep) a b

/-- A text without the separator is its only piece. -/
theorem cutAt_of_notMem {sep : Char} {cs : List Char} (h : sep ∉ cs) : cutAt sep cs = [cs] :=
  cutWhere_eq_singleton fun _ hc => beq_false_of_ne fun he => h (he ▸ hc)

/-- What a joined text holds is the joining character or stands in a piece. -/
theorem mem_glue {sep c : Char} {pieces : List (List Char)} (h : c ∈ glue sep pieces) :
    c = sep ∨ ∃ piece ∈ pieces, c ∈ piece := by
  induction pieces with
  | nil => simp at h
  | cons p ps ih =>
      cases ps with
      | nil => exact Or.inr ⟨p, List.mem_cons_self, by simpa using h⟩
      | cons q qs =>
          rw [glue_cons _ _ (by simp), List.mem_append, List.mem_cons] at h
          rcases h with h | h | h
          · exact Or.inr ⟨p, List.mem_cons_self, h⟩
          · exact Or.inl h
          · rcases ih h with h | ⟨piece, hp, hc⟩
            · exact Or.inl h
            · exact Or.inr ⟨piece, List.mem_cons_of_mem _ hp, hc⟩

/-- A joined text starts with its first piece. -/
theorem exists_glue_cons (sep : Char) (piece : List Char) (pieces : List (List Char)) :
    ∃ rest, glue sep (piece :: pieces) = piece ++ rest := by
  cases pieces with
  | nil => exact ⟨[], by simp⟩
  | cons q qs => exact ⟨_, glue_cons sep piece (by simp)⟩

end ModuleDeps.Text
