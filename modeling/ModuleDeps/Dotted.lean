/-
Dotted names such as `pkg.sub.mod`.

A dotted name is any text; its segments are what stands between its dots.  A name is *well formed*
when none of its segments is empty.  The empty text has one segment, the empty one, so it is not
well formed.

Main definitions:

* `ModuleDeps.Dotted.segments`, `ModuleDeps.Dotted.ofSegments` — a name as a list of segments, and
  back;
* `ModuleDeps.Dotted.leaf` — the last segment of a name;
* `ModuleDeps.Dotted.hasEmptySegment` — is some segment of the name empty?

Main results:

* `ModuleDeps.Dotted.ofSegments_segments`, `ModuleDeps.Dotted.segments_ofSegments` — a name is its
  list of segments.
-/

import ModuleDeps.Text.Pieces

set_option relaxedAutoImplicit false
set_option autoImplicit false

namespace ModuleDeps.Dotted

/-- The segments of a name: what stands between its dots. -/
def segments (name : String) : List String :=
  (Text.cutAt '.' name.toList).map String.ofList

/-- The name with the given segments. -/
def ofSegments (segs : List String) : String :=
  String.ofList (Text.glue '.' (segs.map String.toList))

/-- The last segment of a name. -/
def leaf (name : String) : String :=
  (segments name).getLastD ""

/-- Is some segment of the name empty? -/
def hasEmptySegment (name : String) : Bool :=
  (segments name).any (·.isEmpty)

theorem segments_ne_nil (name : String) : segments name ≠ [] := by
  simpa [segments, Text.cutAt] using Text.cutWhere_ne_nil _ _

/-- A name is made of its segments. -/
@[simp] theorem ofSegments_segments (name : String) : ofSegments (segments name) = name := by
  have h : (segments name).map String.toList = Text.cutAt '.' name.toList := by
    simp [segments, Function.comp_def]
  rw [ofSegments, h, Text.glue_cutAt, String.ofList_toList]

/-- Segments without dots are found again in the name that they make. -/
theorem segments_ofSegments {segs : List String} (hne : segs ≠ [])
    (h : ∀ seg ∈ segs, '.' ∉ seg.toList) : segments (ofSegments segs) = segs := by
  have hcut : Text.cutAt '.' (Text.glue '.' (segs.map String.toList)) = segs.map String.toList :=
    Text.cutAt_glue (by simpa using hne) (by simpa using h)
  rw [segments, ofSegments, String.toList_ofList, hcut]
  simp [Function.comp_def]

/-- No segment holds a dot. -/
theorem dot_notMem_of_mem_segments {name seg : String} (h : seg ∈ segments name) :
    '.' ∉ seg.toList := by
  obtain ⟨piece, hp, rfl⟩ := List.mem_map.1 h
  intro hc
  simpa using Text.not_isCut_of_mem_cutWhere hp '.' (by simpa using hc)

end ModuleDeps.Dotted
