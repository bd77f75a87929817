/-
The spellings of a project's modules.

A module `src.pkg.mod` may be imported as `src.pkg.mod`, as `pkg.mod` or as `mod`.  A full name
always stands for the module that has it; a shorter spelling stands for the first module, in list
order, that ends in it.

Main definitions:

* `ModuleDeps.Dotted.Spellings` — the table from spellings to full names;
* `ModuleDeps.Dotted.Spellings.ofNames` — the table of a list of modules;
* `ModuleDeps.Dotted.Spellings.canonical?` — the full name that a spelling stands for.
-/

import Std.Data.HashMap
import ModuleDeps.Dotted

set_option relaxedAutoImplicit false
set_option autoImplicit false

namespace ModuleDeps.Dotted

/-- The names that are made of a proper, non-empty end of the segments. -/
def shortSpellings : List String → List String
  | [] => []
  | [_] => []
  | _ :: rest => ofSegments rest :: shortSpellings rest

/-- A table from the spellings of a project's modules to their full names. -/
structure Spellings where
  /-- The full name for each spelling. -/
  table : Std.HashMap String String

namespace Spellings

/-- The table without a spelling. -/
def empty : Spellings := ⟨∅⟩

/-- Adds the spellings of one more module: its full name takes the place of whatever the spelling
stood for, a shorter one only counts where it is new.  The last segment comes once more at the
end. -/
def insert (spellings : Spellings) (name : String) : Spellings where
  table := ((shortSpellings (segments name)).foldl
    (fun table short => table.insertIfNew short name)
    (spellings.table.insert name name)).insertIfNew (leaf name) name

/-- The spellings of a list of modules. -/
def ofNames (names : List String) : Spellings :=
  names.foldl insert empty

/-- The full name that a spelling stands for. -/
def canonical? (spellings : Spellings) (spelling : String) : Option String :=
  spellings.table[spelling]?

/-- The number of spellings. -/
def size (spellings : Spellings) : Nat :=
  spellings.table.size

end Spellings

end ModuleDeps.Dotted
