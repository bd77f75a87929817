/-
What writing a file changes.

A text is written to the file that its path leads to, by way of links if there are any.  A new file
stands where nothing stood, so no way led through its place: paths lead where they led before.  All
other places keep what stands there, and all other files keep what they hold.

Not all bytes need to be taken.  Those that are taken are then in the file, and the others are not.

Main definitions:

* `ModuleDeps.FileTree.Extends` — a tree with the places of another one, and perhaps more files;
* `ModuleDeps.FileTree.Filled` — a tree after bytes were written to the file that a path names;
* `ModuleDeps.FileTree.Holds` — a path names a file with the given bytes.

Main results:

* `ModuleDeps.FileTree.Extends.locate`, `ModuleDeps.FileTree.Extends.find` — paths that led
  somewhere still lead there;
* `ModuleDeps.FileTree.writeText_cases` — what a write can do, whether it succeeds or fails;
* `ModuleDeps.FileTree.Filled.lookup?_eq`, `ModuleDeps.FileTree.Filled.body_eq` — the other places
  and the other files keep what they had;
* `ModuleDeps.FileTree.Filled.holds` — **what was taken is in the file**.
-/

import ModuleDeps.Files.Tree

set_option relaxedAutoImplicit false
set_option autoImplicit false

namespace ModuleDeps.FileTree

variable {t t' : FileTree} {place : Place} {number : Nat}

/-! ### Places and numbers -/

theorem ne_nil_of_lookup? (h : t.lookup? place = none) : place ≠ [] := by
  rintro rfl
  cases h

/-- A number that stands at some place is used. -/
theorem ne_unused_of_lookup? (h : t.lookup? place = some (.file number)) : number ≠ t.unused := by
  have hmem : number ∈ t.entries.filterMap fun e => e.2.number? := by
    by_cases hroot : place.isEmpty = true
    · rw [lookup?, if_pos hroot] at h
      cases h
    · rw [lookup?, if_neg hroot] at h
      obtain ⟨e, hfind, hentry⟩ := Option.map_eq_some_iff.1 h
      exact List.mem_filterMap.2 ⟨e, List.mem_of_find?_eq_some hfind, by rw [hentry]; rfl⟩
  have hle : number ≤
      ((t.entries.filterMap fun e => e.2.number?) ++ t.bodies.map (·.1)).max?.getD 0 :=
    List.le_max?_getD_of_mem (List.mem_append_left _ hmem)
  rw [unused, List.foldl_max]
  omega

/-! ### More files -/

/-- A tree with the same working directory and the same places as another one, except for files at
places where nothing stood. -/
structure Extends (t t' : FileTree) : Prop where
  /-- The working directory is the same. -/
  workingDirectory : t'.workingDirectory = t.workingDirectory
  /-- Every place is the same, or it has a new file. -/
  lookup? : ∀ place, t'.lookup? place = t.lookup? place ∨
    t.lookup? place = none ∧ ∃ number, t'.lookup? place = some (.file number)

namespace Extends

theorem refl (t : FileTree) : t.Extends t := ⟨rfl, fun _ => Or.inl rfl⟩

variable (h : t.Extends t')
include h

/-- What stands somewhere stays there. -/
theorem lookup?_of_some {entry : FileEntry} (hentry : t.lookup? place = some entry) :
    t'.lookup? place = some entry := by
  rcases h.lookup? place with hsame | ⟨hnone, -⟩
  · exact hsame.trans hentry
  · rw [hnone] at hentry
    cases hentry

/-- Directories can be entered as before. -/
theorem enter {name : RawText} (henter : t.enter place name = .ok ()) :
    t'.enter place name = .ok () := by
  rw [FileTree.enter] at henter ⊢
  cases hplace : t.lookup? place with
  | none =>
      rw [hplace] at henter
      cases henter
  | some entry =>
      rw [hplace] at henter
      rw [h.lookup?_of_some hplace]
      exact henter

/-- If paths lead on from links as before, then names lead to the same places. -/
theorem follow {asked : Bool} {jump jump' : Place → List RawText → Bool → Except FileFault Target}
    (hjump : ∀ place names slashed target, jump place names slashed = .ok target →
      jump' place names slashed = .ok target)
    {names : List RawText} {slashed : Bool} {target : Target}
    (hfollow : t.follow asked jump place names slashed = .ok target) :
    t'.follow asked jump' place names slashed = .ok target := by
  induction names generalizing place with
  | nil => exact hfollow
  | cons name rest ih =>
      rw [FileTree.follow] at hfollow ⊢
      cases henter : t.enter place name with
      | error cause =>
          rw [henter] at hfollow
          cases hfollow
      | ok _ =>
          rw [henter] at hfollow
          rw [h.enter henter]
          simp only [Except.bind] at hfollow ⊢
          rcases h.lookup? (child place name) with hsame | ⟨hnone, number, hnew⟩
          · rw [hsame]
            match hentry : t.lookup? (child place name), hfollow with
            | none, hfollow => exact hfollow
            | some (.link path), hfollow =>
                by_cases hend : (rest.isEmpty && !asked) = true
                · simp only [hend, if_true] at hfollow ⊢
                  exact hfollow
                · simp only [hend, Bool.false_eq_true, if_false] at hfollow ⊢
                  exact hjump _ _ _ _ hfollow
            | some (.file _), hfollow | some (.directory _), hfollow =>
                by_cases hend : rest.isEmpty = true
                · simp only [hend, if_true] at hfollow ⊢
                  exact hfollow
                · simp only [hend, Bool.false_eq_true, if_false] at hfollow ⊢
                  exact ih hfollow
          · -- the place of a new file can only have been the end of the way
            rw [hnone] at hfollow
            rw [hnew]
            by_cases hend : rest.isEmpty = true
            · simp only [hend, if_true] at hfollow ⊢
              exact hfollow
            · simp only [hend, Bool.false_eq_true, if_false] at hfollow
              cases hfollow

theorem resolve {asked : Bool} {links : Nat} {names : List RawText} {slashed : Bool}
    {target : Target} (hresolve : t.resolve asked links place names slashed = .ok target) :
    t'.resolve asked links place names slashed = .ok target := by
  induction links generalizing place names slashed target with
  | zero => exact h.follow (fun _ _ _ _ hjump => hjump) hresolve
  | succ links ih => exact h.follow (fun _ _ _ _ hjump => ih hjump) hresolve

/-- Paths that led somewhere still lead there. -/
theorem locate {asked : Bool} {path : RawText} {target : Target}
    (hlocate : t.locate asked path = .ok target) : t'.locate asked path = .ok target := by
  rw [FileTree.locate] at hlocate ⊢
  by_cases hempty : path.isEmpty = true
  · rw [if_pos hempty] at hlocate
    cases hlocate
  rw [if_neg hempty] at hlocate ⊢
  by_cases hnul : path.bytes.contains 0 = true
  · rw [if_pos hnul] at hlocate
    cases hlocate
  rw [if_neg hnul] at hlocate ⊢
  by_cases hlong : maxPathSize < path.bytes.length
  · rw [if_pos hlong] at hlocate
    cases hlocate
  rw [if_neg hlong] at hlocate ⊢
  rw [h.workingDirectory]
  exact h.resolve hlocate

/-- Paths that named something still name it. -/
theorem find {path : RawText} {entry : FileEntry} (hfind : t.find path = .ok entry) :
    t'.find path = .ok entry := by
  rw [FileTree.find] at hfind ⊢
  cases hlocate : t.locate true path with
  | error cause =>
      rw [hlocate] at hfind
      cases hfind
  | ok target =>
      rw [hlocate] at hfind
      rw [h.locate hlocate]
      simp only [Except.bind] at hfind ⊢
      cases hplace : t.lookup? target.place with
      | none =>
          rw [hplace] at hfind
          cases hfind
      | some standing =>
          rw [hplace] at hfind
          rw [h.lookup?_of_some hplace]
          exact hfind

end Extends

/-! ### Bytes in a file -/

theorem setBody_setBody (t : FileTree) (number : Nat) (file file' : FileBody) :
    (t.setBody number file).setBody number file' = t.setBody number file' := by
  simp [setBody, List.filter_filter]

/-- What was in a file does not matter for what is written over it. -/
theorem fill_fill (t : FileTree) (number : Nat) (bytes bytes' : List UInt8) :
    (t.fill number bytes).fill number bytes' = t.fill number bytes' := by
  by_cases hregular : (t.body number).isRegular = true
  · simp [fill, hregular, body_setBody, setBody_setBody]
  · simp [fill, hregular]

/-- A new file takes bytes. -/
theorem fill_setBody_ofBytes (t : FileTree) (number : Nat) (bytes bytes' : List UInt8) :
    (t.setBody number (.ofBytes bytes)).fill number bytes' =
      t.setBody number (.ofBytes bytes') := by
  simp [fill, body_setBody, setBody_setBody, FileBody.ofBytes]

theorem extends_fill (t : FileTree) (number : Nat) (bytes : List UInt8) :
    t.Extends (t.fill number bytes) := by
  rw [fill]
  split
  · exact ⟨rfl, fun _ => Or.inl rfl⟩
  · exact .refl t

theorem body_fill_of_ne {other : Nat} (h : other ≠ number) (bytes : List UInt8) :
    (t.fill number bytes).body other = t.body other := by
  rw [fill]
  split
  · rw [body_setBody, if_neg h]
  · rfl

theorem bytes_body_fill {bytes : List UInt8}
    (h : ((t.fill number bytes).body number).isRegular = true) :
    ((t.fill number bytes).body number).bytes = bytes := by
  by_cases hregular : (t.body number).isRegular = true
  · rw [fill, if_pos hregular, body_setBody, if_pos rfl]
  · rw [fill, if_neg hregular] at h
    exact absurd h hregular

theorem find_of_locate {path : RawText} {target : Target}
    (hlocate : t.locate true path = .ok target) (hslash : target.slashed = false)
    (hfile : t.lookup? target.place = some (.file number)) :
    t.find path = .ok (.file number) := by
  rw [find, hlocate]
  simp [Except.bind, hfile, hslash]

/-- A path names a file with the given bytes.  A device may be there as well, which keeps none. -/
def Holds (t : FileTree) (path : RawText) (bytes : List UInt8) : Prop :=
  ∃ number, t.find path = .ok (.file number) ∧
    ((t.body number).isRegular = true → (t.body number).bytes = bytes)

/-! ### Writing -/

/-- The tree after bytes were written to the file that a path names. -/
inductive Filled (t : FileTree) (path : RawText) (bytes : List UInt8) : FileTree → Prop
  /-- There is a file already. -/
  | old {place : Place} {number : Nat} (hlocate : t.locate true path = .ok ⟨place, false⟩)
      (hfile : t.lookup? place = some (.file number)) :
      Filled t path bytes (t.fill number bytes)
  /-- The file is new. -/
  | new {place : Place} (hlocate : t.locate true path = .ok ⟨place, false⟩)
      (hnone : t.lookup? place = none) :
      Filled t path bytes
        ((t.put place (.file t.unused)).setBody t.unused (.ofBytes bytes))

namespace Filled

variable {path : RawText} {bytes : List UInt8}

theorem lookup?_new (hnone : t.lookup? place = none) (file : FileBody) (other : Place) :
    ((t.put place (.file t.unused)).setBody t.unused file).lookup? other =
      if other = place then some (.file t.unused) else t.lookup? other :=
  lookup?_put t (ne_nil_of_lookup? hnone) _ other

variable (h : t.Filled path bytes t')
include h

theorem toExtends : t.Extends t' := by
  cases h with
  | old _ _ => exact extends_fill t _ bytes
  | @new place _ hnone =>
      refine ⟨rfl, ?_⟩
      intro other
      rw [lookup?_new hnone]
      by_cases hother : other = place
      · rw [if_pos hother, hother]
        exact Or.inr ⟨hnone, _, rfl⟩
      · rw [if_neg hother]
        exact Or.inl rfl

/-- The other places keep what stands there. -/
theorem lookup?_eq {other : Place}
    (hother : ∀ target, t.locate true path = .ok target → other ≠ target.place) :
    t'.lookup? other = t.lookup? other := by
  cases h with
  | old _ _ =>
      rw [fill]
      split <;> rfl
  | new hlocate hnone => rw [lookup?_new hnone, if_neg (hother _ hlocate)]

/-- The other files keep what they hold. -/
theorem body_eq (hplace : t.lookup? place = some (.file number))
    (hother : t.find path ≠ .ok (.file number)) : t'.body number = t.body number := by
  cases h with
  | old hlocate hfile =>
      refine body_fill_of_ne ?_ bytes
      rintro rfl
      exact hother (find_of_locate hlocate rfl hfile)
  | new _ _ =>
      rw [body_setBody, if_neg (ne_unused_of_lookup? hplace)]
      rfl

/-- What was taken is in the file. -/
theorem holds : t'.Holds path bytes := by
  have hextends : t.Extends t' := h.toExtends
  cases h with
  | old hlocate hfile =>
      exact ⟨_, hextends.find (find_of_locate hlocate rfl hfile), bytes_body_fill⟩
  | new hlocate hnone =>
      refine ⟨t.unused, find_of_locate (hextends.locate hlocate) rfl ?_, fun _ => ?_⟩
      · rw [lookup?_new hnone, if_pos rfl]
      · rw [body_setBody, if_pos rfl, FileBody.ofBytes]

end Filled

/-- A path leads to a file that can be opened, or to a place where one can be made. -/
theorem create_cases (t : FileTree) (path : RawText) :
    (∃ cause, t.create path = .error cause) ∨
      ∃ opened number, t.create path = .ok (opened, number) ∧
        ∀ bytes, t.Filled path bytes (opened.fill number bytes) := by
  rw [create]
  cases hlocate : t.locate true path with
  | error cause => exact Or.inl ⟨cause, rfl⟩
  | ok target =>
      obtain ⟨place, slashed⟩ := target
      simp only [Except.bind]
      cases slashed with
      | true => exact Or.inl ⟨_, rfl⟩
      | false =>
          simp only [Bool.false_eq_true, if_false]
          match hplace : t.lookup? place with
          | some (.directory _) => exact Or.inl ⟨_, rfl⟩
          | some (.link _) => exact Or.inl ⟨_, rfl⟩
          | some (.file number) =>
              cases hbars : (t.body number).bars.writing with
              | some cause => exact Or.inl ⟨cause, by simp only [hbars]⟩
              | none =>
                  refine Or.inr ⟨t.fill number [], number, by simp only [hbars], ?_⟩
                  intro bytes
                  rw [fill_fill]
                  exact .old hlocate hplace
          | none =>
              cases hbars : (t.barsAt place.dropLast).writing with
              | some cause => exact Or.inl ⟨cause, rfl⟩
              | none =>
                  refine Or.inr ⟨_, t.unused, rfl, ?_⟩
                  intro bytes
                  rw [fill_setBody_ofBytes]
                  exact .new hlocate hplace

/-- A write fails and changes nothing, or the bytes that are taken are in the file then.  It has
failed all the same if these are not all. -/
theorem writeText_cases (t : FileTree) (room : Option Room) (path : RawText) (text : String) :
    (∃ cause, t.writeText room path text = ⟨t, .error cause⟩) ∨
      ∃ t', t.Filled path (Room.taken room (RawText.ofText text).bytes) t' ∧
        t.writeText room path text = ⟨t', Room.outcome room (RawText.ofText text).bytes⟩ := by
  rw [writeText]
  rcases t.create_cases path with ⟨cause, hcreate⟩ | ⟨opened, number, hcreate, hfilled⟩
  · rw [hcreate]
    exact Or.inl ⟨cause, rfl⟩
  · rw [hcreate]
    exact Or.inr ⟨_, hfilled _, rfl⟩

section Writing

variable {room : Option Room} {path : RawText} {text : String}

/-- After a write that succeeds, all bytes are in the file. -/
theorem filled_of_writeText (h : t.writeText room path text = ⟨t', .ok ()⟩) :
    t.Filled path (RawText.ofText text).bytes t' := by
  rcases t.writeText_cases room path text with ⟨cause, herror⟩ | ⟨t₁, hfilled, hwrite⟩
  · rw [h] at herror
    cases herror
  · rw [h] at hwrite
    obtain ⟨rfl, hroom⟩ := FileAttempt.mk.inj hwrite
    rwa [Room.taken_of_outcome hroom.symm] at hfilled

/-- If a file can be opened, then it depends on the room whether a text can be written to it. -/
theorem outcome_writeText (h : (t.create path).toBool = true) (room : Option Room) (text : String) :
    (t.writeText room path text).outcome = Room.outcome room (RawText.ofText text).bytes := by
  rw [writeText]
  cases hcreate : t.create path with
  | error cause =>
      rw [hcreate] at h
      cases h
  | ok opened => rfl

end Writing

end ModuleDeps.FileTree
