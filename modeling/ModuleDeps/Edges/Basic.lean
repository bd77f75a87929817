/-
Edge maps: which names each name points at.

An edge map is an ordered map from names to lists of names.  Its keys stand in the order in which
they were first given, and so do the targets of a key; a key may have no target, and a list may
repeat one.

Main definitions:

* `ModuleDeps.EdgeMap` — an edge map;
* `ModuleDeps.EdgeMap.keys`, `ModuleDeps.EdgeMap.get?`, `ModuleDeps.EdgeMap.targets` — its keys, and
  the targets of a key;
* `ModuleDeps.EdgeMap.set`, `ModuleDeps.EdgeMap.add` — new targets for a key, and one more target;
* `ModuleDeps.EdgeMap.pairs` — its edges one by one.

Main results:

* `ModuleDeps.EdgeMap.keys_set`, `ModuleDeps.EdgeMap.get?_set` — what `set` changes.
-/

import ModuleDeps.NameSet

set_option relaxedAutoImplicit false
set_option autoImplicit false

namespace ModuleDeps

/-- Entries with new targets for a key, which keeps its place, or stands last if it is new. -/
def setTargets (key : String) (ts : List String) :
    List (String × List String) → List (String × List String)
  | [] => [(key, ts)]
  | e :: es => if e.1 = key then (key, ts) :: es else e :: setTargets key ts es

theorem map_fst_setTargets (key : String) (ts : List String) (es : List (String × List String)) :
    (setTargets key ts es).map Prod.fst =
      if key ∈ es.map Prod.fst then es.map Prod.fst else es.map Prod.fst ++ [key] := by
  induction es with
  | nil => simp [setTargets]
  | cons e es ih =>
      rw [setTargets]
      by_cases he : e.1 = key
      · simp [he]
      · have hne : key ≠ e.1 := fun h => he h.symm
        simp only [he, if_false, List.map_cons, ih, List.mem_cons, hne, false_or]
        split <;> simp

theorem lookupEntry_setTargets (key x : String) (ts : List String)
    (es : List (String × List String)) :
    lookupEntry x (setTargets key ts es) = if key = x then some ts else lookupEntry x es := by
  induction es with
  | nil => simp [setTargets, lookupEntry]
  | cons e es ih =>
      rw [setTargets]
      split
      · next he => by_cases hx : key = x <;> simp [he, hx, lookupEntry]
      · next he =>
        rw [lookupEntry, lookupEntry, ih]
        by_cases hx : e.1 = x
        · have : key ≠ x := fun h => he (hx.trans h.symm)
          simp [hx, this]
        · simp [hx]

/-- An ordered map from names to lists of names. -/
structure EdgeMap where
  /-- The keys with their targets, in order. -/
  entries : List (String × List String)
  /-- No key stands twice. -/
  nodup : (entries.map Prod.fst).Nodup
  deriving DecidableEq

namespace EdgeMap

/-- The edge map without a key. -/
def empty : EdgeMap := ⟨[], .nil⟩

/-- The keys, in order. -/
def keys (edges : EdgeMap) : List String :=
  edges.entries.map Prod.fst

/-- The targets of a key. -/
def get? (edges : EdgeMap) (key : String) : Option (List String) :=
  lookupEntry key edges.entries

/-- Is the name a key? -/
def isKey (edges : EdgeMap) (name : String) : Bool :=
  (edges.get? name).isSome

/-- The targets of a name; a name that is no key has none. -/
def targets (edges : EdgeMap) (name : String) : List String :=
  (edges.get? name).getD []

/-- The edge map with new targets for a key, which keeps its place, or stands last if it is new. -/
def set (edges : EdgeMap) (key : String) (ts : List String) : EdgeMap where
  entries := setTargets key ts edges.entries
  nodup := by
    rw [map_fst_setTargets]
    split
    · exact edges.nodup
    · next h =>
      exact List.nodup_append.2 ⟨edges.nodup, by simp, fun a ha b hb hab =>
        h (List.mem_singleton.1 hb ▸ hab ▸ ha)⟩

/-- The edge map with one more target for a key, and whether the target is new. -/
def add (edges : EdgeMap) (key target : String) : EdgeMap × Bool :=
  if target ∈ edges.targets key then (edges, false)
  else (edges.set key (edges.targets key ++ [target]), true)

/-- The edge map of a list of entries; a repeated key keeps its first place and takes its last
targets. -/
def ofList (entries : List (String × List String)) : EdgeMap :=
  entries.foldl (fun edges e => edges.set e.1 e.2) empty

/-- The edges one by one, in order. -/
def pairs (edges : EdgeMap) : List (String × String) :=
  edges.entries.flatMap fun e => e.2.map (e.1, ·)

/-- All targets of all keys, in order. -/
def allTargets (edges : EdgeMap) : List String :=
  edges.entries.flatMap Prod.snd

theorem keys_set (edges : EdgeMap) (key : String) (ts : List String) :
    (edges.set key ts).keys = if key ∈ edges.keys then edges.keys else edges.keys ++ [key] :=
  map_fst_setTargets key ts edges.entries

@[simp] theorem get?_set (edges : EdgeMap) (key x : String) (ts : List String) :
    (edges.set key ts).get? x = if key = x then some ts else edges.get? x :=
  lookupEntry_setTargets key x ts edges.entries

end EdgeMap

end ModuleDeps
