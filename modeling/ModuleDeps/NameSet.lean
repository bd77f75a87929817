/-
Sets of names and tables over names, in the order of the names.

Both are lists in strictly increasing order, so that a set has one form only and can be read off in
order.  Names are compared by their characters from left to right.

Main definitions:

* `ModuleDeps.NameSet` — a set of names, with `insert`, `ofList`, `contains` and `size`;
* `ModuleDeps.NameTable` — a table from names to values, with `insert`, `ofList` and `get?`.

Main results:

* `ModuleDeps.NameSet.mem_names_insert`, `ModuleDeps.NameSet.mem_names_ofList` — what a set holds;
* `ModuleDeps.NameTable.get?_insert` — what a table holds.
-/

set_option relaxedAutoImplicit false
set_option autoImplicit false

namespace ModuleDeps

/-! ### Sets -/

/-- A list in increasing order with one more name; a name that is there already is not repeated. -/
def insertName (name : String) : List String → List String
  | [] => [name]
  | n :: ns => if name < n then name :: n :: ns else if n < name then n :: insertName name ns
    else n :: ns

theorem mem_insertName {x name : String} {ns : List String} :
    x ∈ insertName name ns ↔ x = name ∨ x ∈ ns := by
  induction ns with
  | nil => simp [insertName]
  | cons n ns ih =>
      rw [insertName]
      split
      · simp
      · split
        · simp [ih, or_left_comm]
        · next h₁ h₂ =>
          have : name = n := String.le_antisymm (String.not_lt.1 h₂) (String.not_lt.1 h₁)
          simp [this]

theorem pairwise_insertName {name : String} {ns : List String} (h : ns.Pairwise (· < ·)) :
    (insertName name ns).Pairwise (· < ·) := by
  induction ns with
  | nil => simp [insertName]
  | cons n ns ih =>
      rw [List.pairwise_cons] at h
      rw [insertName]
      split
      · next hlt =>
        refine List.pairwise_cons.2 ⟨fun x hx => ?_, List.pairwise_cons.2 h⟩
        rcases List.mem_cons.1 hx with rfl | hx
        · exact hlt
        · exact String.lt_trans hlt (h.1 x hx)
      · split
        · next hlt =>
          refine List.pairwise_cons.2 ⟨fun x hx => ?_, ih h.2⟩
          rcases mem_insertName.1 hx with rfl | hx
          · exact hlt
          · exact h.1 x hx
        · exact List.pairwise_cons.2 h

/-- A set of names. -/
structure NameSet where
  /-- The names, in increasing order. -/
  names : List String
  /-- The order is strict. -/
  sorted : names.Pairwise (· < ·)
  deriving DecidableEq

namespace NameSet

/-- The set without a name. -/
def empty : NameSet := ⟨[], .nil⟩

/-- The set with one more name. -/
def insert (set : NameSet) (name : String) : NameSet :=
  ⟨insertName name set.names, pairwise_insertName set.sorted⟩

/-- The set of the names of a list. -/
def ofList (names : List String) : NameSet :=
  names.foldl insert empty

/-- Does the set hold the name? -/
def contains (set : NameSet) (name : String) : Bool :=
  set.names.contains name

/-- The number of names in the set. -/
def size (set : NameSet) : Nat :=
  set.names.length

@[simp] theorem mem_names_insert {set : NameSet} {name x : String} :
    x ∈ (set.insert name).names ↔ x = name ∨ x ∈ set.names :=
  mem_insertName

theorem mem_names_foldl_insert {names : List String} {set : NameSet} {x : String} :
    x ∈ (names.foldl insert set).names ↔ x ∈ names ∨ x ∈ set.names := by
  induction names generalizing set with
  | nil => simp
  | cons n ns ih => simp [ih, or_assoc, or_left_comm]

/-- The set of the names of a list holds just these names. -/
@[simp] theorem mem_names_ofList {names : List String} {x : String} :
    x ∈ (ofList names).names ↔ x ∈ names := by
  simp [ofList, mem_names_foldl_insert, empty]

end NameSet

/-! ### Tables -/

variable {β : Type}

/-- Entries in increasing order of their names with one more entry; it takes the place of an entry
with its name. -/
def insertEntry (name : String) (value : β) : List (String × β) → List (String × β)
  | [] => [(name, value)]
  | e :: es => if name < e.1 then (name, value) :: e :: es
    else if e.1 < name then e :: insertEntry name value es
    else (name, value) :: es

theorem map_fst_insertEntry (name : String) (value : β) (es : List (String × β)) :
    (insertEntry name value es).map Prod.fst = insertName name (es.map Prod.fst) := by
  induction es with
  | nil => rfl
  | cons e es ih =>
      rw [insertEntry, List.map_cons, insertName]
      split
      · simp
      · split
        · simp [ih]
        · next h₁ h₂ =>
          have : name = e.1 := String.le_antisymm (String.not_lt.1 h₂) (String.not_lt.1 h₁)
          simp [this]

/-- The value of the first entry with a name. -/
def lookupEntry (name : String) : List (String × β) → Option β
  | [] => none
  | e :: es => if e.1 = name then some e.2 else lookupEntry name es

theorem lookupEntry_insertEntry (name x : String) (value : β) (es : List (String × β)) :
    lookupEntry x (insertEntry name value es) =
      if name = x then some value else lookupEntry x es := by
  induction es with
  | nil => simp [insertEntry, lookupEntry]
  | cons e es ih =>
      rw [insertEntry]
      split
      · simp [lookupEntry]
      · split
        · next h₁ h₂ =>
          have hne : e.1 ≠ name := fun he => String.lt_irrefl _ (he ▸ h₂)
          by_cases hx : e.1 = x
          · have : name ≠ x := fun hn => hne (hx.trans hn.symm)
            simp [lookupEntry, hx, this]
          · simp [lookupEntry, hx, ih]
        · next h₁ h₂ =>
          have : name = e.1 := String.le_antisymm (String.not_lt.1 h₂) (String.not_lt.1 h₁)
          by_cases hx : name = x
          · simp [lookupEntry, hx]
          · simp [lookupEntry, hx, ← this]

/-- A table from names to values. -/
structure NameTable (β : Type) where
  /-- The entries, in increasing order of their names. -/
  entries : List (String × β)
  /-- The order is strict. -/
  sorted : (entries.map Prod.fst).Pairwise (· < ·)
  deriving DecidableEq

namespace NameTable

/-- The table without an entry. -/
def empty : NameTable β := ⟨[], .nil⟩

/-- The table with one more entry; it takes the place of an entry with its name. -/
def insert (table : NameTable β) (name : String) (value : β) : NameTable β :=
  ⟨insertEntry name value table.entries, by
    rw [map_fst_insertEntry]
    exact pairwise_insertName table.sorted⟩

/-- The table of a list of entries, of which the last one with a name counts. -/
def ofList (entries : List (String × β)) : NameTable β :=
  entries.foldl (fun table e => table.insert e.1 e.2) empty

/-- The value for a name. -/
def get? (table : NameTable β) (name : String) : Option β :=
  lookupEntry name table.entries

/-- The names of the table, in increasing order. -/
def names (table : NameTable β) : List String :=
  table.entries.map Prod.fst

/-- The values of the table, in the order of their names. -/
def values (table : NameTable β) : List β :=
  table.entries.map Prod.snd

@[simp] theorem get?_empty (name : String) : (empty : NameTable β).get? name = none := rfl

@[simp] theorem get?_insert (table : NameTable β) (name x : String) (value : β) :
    (table.insert name value).get? x = if name = x then some value else table.get? x :=
  lookupEntry_insertEntry name x value table.entries

@[simp] theorem mem_names_insert {table : NameTable β} {name x : String} {value : β} :
    x ∈ (table.insert name value).names ↔ x = name ∨ x ∈ table.names := by
  simp [names, insert, map_fst_insertEntry, mem_insertName]

end NameTable

end ModuleDeps
