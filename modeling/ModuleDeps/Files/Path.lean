/-
Paths as they are written.

A path is cut at its slashes.  Pieces that are empty or a single dot name nothing, apart from a dot
at the very beginning of a path.

Main definitions:

* `ModuleDeps.Path.isAbsolute`, `ModuleDeps.Path.pieces`, `ModuleDeps.Path.names` — a path cut at
  its slashes, and the names between them;
* `ModuleDeps.Path.join` — a path below another;
* `ModuleDeps.Path.parent?` — the path of the directory that holds what a path names.

Main results:

* `ModuleDeps.Path.length_parent?_lt` — the path of the directory is shorter.
-/

import ModuleDeps.Text.Pieces
import ModuleDeps.Text.Raw

set_option relaxedAutoImplicit false
set_option autoImplicit false

namespace ModuleDeps.Path

/-- The byte between the pieces of a path. -/
def slash : UInt8 := 47

/-- What stands between slashes in a path. -/
def pieces (path : RawText) : List RawText :=
  (Text.cutAt slash path.bytes).map RawText.mk

/-- The pieces of a path as a path. -/
def ofPieces (parts : List RawText) : RawText :=
  ⟨Text.glue slash (parts.map RawText.bytes)⟩

/-- The pieces, with slashes between them, are the path. -/
theorem ofPieces_pieces (path : RawText) : ofPieces (pieces path) = path := by
  have hbytes : (pieces path).map RawText.bytes = Text.cutAt slash path.bytes := by
    rw [pieces, List.map_map]
    exact List.map_id _
  rw [ofPieces, hbytes, Text.glue_cutAt]

/-- Does a path start at the root? -/
def isAbsolute (path : RawText) : Bool :=
  path.bytes.head? == some slash

/-- A path below another; one that starts at the root stands for itself. -/
def join (base path : RawText) : RawText :=
  if isAbsolute path then path
  else if base.isEmpty || base.bytes.getLast? == some slash then ⟨base.bytes ++ path.bytes⟩
  else ⟨base.bytes ++ slash :: path.bytes⟩

/-- The names on the way that a path describes. -/
def names (path : RawText) : List RawText :=
  (pieces path).filter (!·.isEmpty)

/-- Does a path end with a slash? -/
def isSlashed (path : RawText) : Bool :=
  path.bytes.getLast? == some slash

/-- Does a piece name nothing? -/
def isVoid (piece : RawText) : Bool :=
  piece.isEmpty || piece == "."

/-- The pieces behind the first one without those at the end that name nothing. -/
def trimVoid (behind : List RawText) : List RawText :=
  (behind.reverse.dropWhile isVoid).reverse

/-- The path of the directory that holds what a path names.  The root and the empty path have
none. -/
def parent? (path : RawText) : Option RawText :=
  match pieces path with
  | [] => none
  | first :: behind =>
    match trimVoid behind with
    | [] => if first.isEmpty then none else some ""
    | named =>
      let above := ofPieces (first :: trimVoid named.dropLast)
      some (if above.isEmpty && isAbsolute path then "/" else above)

/-! ### Lengths -/

theorem trimVoid_prefix (behind : List RawText) : trimVoid behind <+: behind := by
  have hsuffix := List.dropWhile_suffix (l := behind.reverse) isVoid
  rwa [← List.reverse_prefix, List.reverse_reverse] at hsuffix

@[simp] theorem ofPieces_singleton (piece : RawText) : ofPieces [piece] = piece := by
  rw [ofPieces, List.map_cons, List.map_nil, Text.glue_singleton]

/-- The length of a path of two pieces or more. -/
theorem length_ofPieces_cons (first : RawText) {behind : List RawText} (h : behind ≠ []) :
    (ofPieces (first :: behind)).bytes.length =
      first.bytes.length + 1 + (ofPieces behind).bytes.length := by
  have hbytes : behind.map RawText.bytes ≠ [] := by simpa using h
  simp only [ofPieces, List.map_cons, Text.glue_cons _ _ hbytes, List.length_append,
    List.length_cons]
  omega

theorem length_le_ofPieces (first : RawText) (behind : List RawText) :
    first.bytes.length ≤ (ofPieces (first :: behind)).bytes.length := by
  by_cases h : behind = []
  · simp only [h, ofPieces_singleton, Nat.le_refl]
  · rw [length_ofPieces_cons first h]
    omega

/-- Pieces without some at the end make a shorter path. -/
theorem length_ofPieces_lt (first : RawText) (less : List RawText) {more : List RawText}
    (h : more ≠ []) :
    (ofPieces (first :: less)).bytes.length <
      (ofPieces (first :: (less ++ more))).bytes.length := by
  induction less generalizing first with
  | nil =>
      rw [List.nil_append, length_ofPieces_cons first h, ofPieces_singleton]
      omega
  | cons piece less ih =>
      rw [List.cons_append, length_ofPieces_cons first (by simp),
        length_ofPieces_cons first (by simp)]
      exact Nat.add_lt_add_left (ih piece) _

/-- Pieces of which some name something make a path that is not empty. -/
theorem length_ofPieces_pos {behind : List RawText} (h : trimVoid behind ≠ []) :
    0 < (ofPieces behind).bytes.length := by
  match behind with
  | [] => exact absurd rfl h
  | [piece] =>
      rw [ofPieces_singleton]
      refine List.length_pos_iff.2 ?_
      intro hnil
      have hvoid : isVoid piece = true := by simp [isVoid, RawText.isEmpty, hnil]
      exact h (by simp [trimVoid, hvoid])
  | piece :: next :: rest =>
      rw [length_ofPieces_cons piece (by simp)]
      omega

/-- A directory has a shorter path than what it holds. -/
theorem length_parent?_lt {path above : RawText} (h : parent? path = some above) :
    above.bytes.length < path.bytes.length := by
  rw [← ofPieces_pieces path]
  rw [parent?] at h
  cases hpieces : pieces path with
  | nil =>
      rw [hpieces] at h
      cases h
  | cons first behind =>
      rw [hpieces] at h
      simp only at h
      cases hnamed : trimVoid behind with
      | nil =>
          rw [hnamed] at h
          simp only [Option.ite_none_left_eq_some, Option.some.injEq] at h
          obtain ⟨hfirst, rfl⟩ := h
          have hpos : 0 < first.bytes.length := by
            refine List.length_pos_iff.2 ?_
            intro hnil
            simp [RawText.isEmpty, hnil] at hfirst
          exact Nat.lt_of_lt_of_le hpos (length_le_ofPieces first behind)
      | cons name names =>
          rw [hnamed] at h
          obtain rfl := Option.some.inj h
          have hne : trimVoid behind ≠ [] := by
            rw [hnamed]
            exact List.cons_ne_nil _ _
          by_cases hroot : ((ofPieces (first :: trimVoid (name :: names).dropLast)).isEmpty &&
              isAbsolute path) = true
          · -- a path that starts at the root has a slash and a name
            have hbehind : behind ≠ [] := by
              rintro rfl
              exact hne rfl
            have hpos := length_ofPieces_pos hne
            have hslash : (RawText.ofText "/").bytes.length = 1 := rfl
            rw [if_pos hroot, hslash, length_ofPieces_cons first hbehind]
            omega
          · rw [if_neg hroot]
            obtain ⟨more, hmore⟩ := trimVoid_prefix (name :: names).dropLast
            obtain ⟨rest, hrest⟩ := trimVoid_prefix behind
            have hsplit : behind = trimVoid (name :: names).dropLast ++
                (more ++ ((name :: names).getLast (List.cons_ne_nil _ _) :: rest)) := by
              rw [← hrest, hnamed, ← List.append_assoc, hmore, List.append_cons,
                List.dropLast_concat_getLast]
            rw [hsplit]
            exact length_ofPieces_lt first _ (by simp)

end ModuleDeps.Path
