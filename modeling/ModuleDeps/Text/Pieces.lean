/-
Cutting a text into pieces.

A text, of characters or of bytes, is cut at every character of a class; nothing is dropped, so that
two neighbouring cuts have an empty piece between them, and the empty text has one empty piece.
Joining the pieces with the character they were cut at gives the text back.

Main definitions:

* `ModuleDeps.Text.cutWhere`, `ModuleDeps.Text.cutAt` — the pieces of a text;
* `ModuleDeps.Text.glue` — pieces joined by a character;
* `ModuleDeps.Text.words` — the pieces between blanks, empty ones left out;
* `ModuleDeps.Text.trimStart`, `ModuleDeps.Text.trimEnd`, `ModuleDeps.Text.trim` — a text without
  blanks around it.

Main results:

* `ModuleDeps.Text.glue_cutAt` — cutting loses nothing;
* `ModuleDeps.Text.cutAt_glue` — pieces free of the joining character are found again.
-/

import ModuleDeps.Text.Blank

set_option relaxedAutoImplicit false
set_option autoImplicit false

namespace ModuleDeps.Text

/-! ### Cutting -/

variable {α : Type}

/-- One more character in front of a list of pieces: it opens a new piece if the text is cut there,
and belongs to the first piece otherwise. -/
def cutStep (isCut : α → Bool) (c : α) (pieces : List (List α)) : List (List α) :=
  if isCut c then [] :: pieces
  else match pieces with
    | [] => [[c]]
    | piece :: rest => (c :: piece) :: rest

/-- The pieces of a text that is cut at every character of a class. -/
def cutWhere (isCut : α → Bool) (cs : List α) : List (List α) :=
  cs.foldr (cutStep isCut) [[]]

/-- The pieces of a text that is cut at every occurrence of one character. -/
def cutAt [DecidableEq α] (sep : α) (cs : List α) : List (List α) :=
  cutWhere (· == sep) cs

@[simp] theorem cutWhere_nil (isCut : α → Bool) : cutWhere isCut [] = [[]] := rfl

theorem cutWhere_cons (isCut : α → Bool) (c : α) (cs : List α) :
    cutWhere isCut (c :: cs) = cutStep isCut c (cutWhere isCut cs) := rfl

/-- A text has at least one piece. -/
theorem cutWhere_ne_nil (isCut : α → Bool) (cs : List α) : cutWhere isCut cs ≠ [] := by
  induction cs with
  | nil => simp
  | cons c cs ih =>
      rw [cutWhere_cons, cutStep.eq_def]
      split
      · simp
      · split <;> simp

/-- Pieces joined by a character. -/
def glue (sep : α) (pieces : List (List α)) : List α :=
  [sep].intercalate pieces

@[simp] theorem glue_nil (sep : α) : glue sep [] = [] := rfl

@[simp] theorem glue_singleton (sep : α) (piece : List α) : glue sep [piece] = piece := by
  simp [glue, List.intercalate]

theorem glue_cons (sep : α) (piece : List α) {pieces : List (List α)}
    (h : pieces ≠ []) : glue sep (piece :: pieces) = piece ++ sep :: glue sep pieces := by
  cases pieces with
  | nil => exact absurd rfl h
  | cons q qs => simp [glue, List.intercalate, List.intersperse]

/-- Cutting loses nothing: the pieces, joined again, are the text. -/
theorem glue_cutAt [DecidableEq α] (sep : α) (cs : List α) : glue sep (cutAt sep cs) = cs := by
  induction cs with
  | nil => simp [cutAt]
  | cons c cs ih =>
      have hne := cutWhere_ne_nil (· == sep) cs
      rw [cutAt] at ih
      rw [cutAt, cutWhere_cons, cutStep.eq_def]
      split
      · next hc =>
        rw [glue_cons _ _ hne, ih]
        simp_all
      · next hc =>
        split
        · next h => exact absurd h hne
        · next piece rest h =>
          rw [h] at ih
          cases rest with
          | nil => simpa using ih
          | cons q qs =>
              rw [glue_cons _ _ (by simp)] at ih ⊢
              simpa using ih

/-- A piece holds no character at which the text is cut. -/
theorem not_isCut_of_mem_cutWhere {isCut : α → Bool} {cs piece : List α}
    (h : piece ∈ cutWhere isCut cs) : ∀ c ∈ piece, isCut c = false := by
  induction cs generalizing piece with
  | nil => simp_all
  | cons d cs ih =>
      rw [cutWhere_cons, cutStep.eq_def] at h
      split at h
      · rcases List.mem_cons.1 h with rfl | h
        · simp
        · exact ih h
      · next hd =>
        split at h
        · next hn => exact absurd hn (cutWhere_ne_nil _ _)
        · next p rest hp =>
          rcases List.mem_cons.1 h with rfl | h
          · intro c hc
            rcases List.mem_cons.1 hc with rfl | hc
            · simpa using hd
            · exact ih (by rw [hp]; exact List.mem_cons_self) c hc
          · exact ih (by rw [hp]; exact List.mem_cons_of_mem _ h)

/-- A text without the cutting characters is its own and only piece. -/
theorem cutWhere_eq_singleton {isCut : α → Bool} {cs : List α}
    (h : ∀ c ∈ cs, isCut c = false) : cutWhere isCut cs = [cs] := by
  induction cs with
  | nil => rfl
  | cons c cs ih =>
      rw [cutWhere_cons, ih fun x hx => h x (List.mem_cons_of_mem _ hx), cutStep]
      simp [h c List.mem_cons_self]

/-- The first cut of a text ends its first piece. -/
theorem cutWhere_append_cons {isCut : α → Bool} {piece : List α} {c : α}
    (hp : ∀ x ∈ piece, isCut x = false) (hc : isCut c = true) (rest : List α) :
    cutWhere isCut (piece ++ c :: rest) = piece :: cutWhere isCut rest := by
  induction piece with
  | nil => simp [cutWhere_cons, cutStep, hc]
  | cons d ds ih =>
      rw [List.cons_append, cutWhere_cons, ih fun x hx => hp x (List.mem_cons_of_mem _ hx), cutStep]
      simp [hp d List.mem_cons_self]

/-- Pieces that do not hold the joining character are found again by cutting at it. -/
theorem cutAt_glue [DecidableEq α] {sep : α} {pieces : List (List α)} (hne : pieces ≠ [])
    (h : ∀ piece ∈ pieces, sep ∉ piece) : cutAt sep (glue sep pieces) = pieces := by
  induction pieces with
  | nil => exact absurd rfl hne
  | cons p ps ih =>
      have hp : ∀ x ∈ p, (x == sep) = false := fun x hx =>
        beq_false_of_ne fun he => h p List.mem_cons_self (he ▸ hx)
      cases ps with
      | nil => simpa [cutAt] using cutWhere_eq_singleton hp
      | cons q qs =>
          rw [glue_cons _ _ (by simp), cutAt, cutWhere_append_cons hp (by simp)]
          exact congrArg _ (ih (by simp) fun x hx => h x (List.mem_cons_of_mem _ hx))

/-! ### Blanks -/

/-- A text without the blanks in front of it. -/
def trimStart (cs : List Char) : List Char :=
  cs.dropWhile isBlank

/-- A text without the blanks behind it. -/
def trimEnd (cs : List Char) : List Char :=
  (cs.reverse.dropWhile isBlank).reverse

/-- A text without the blanks around it. -/
def trim (cs : List Char) : List Char :=
  trimEnd (trimStart cs)

/-- The words of a text: its longest pieces without a blank. -/
def words (cs : List Char) : List (List Char) :=
  (cutWhere isBlank cs).filter fun piece => !piece.isEmpty

end ModuleDeps.Text
