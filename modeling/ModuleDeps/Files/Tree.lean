/-
A tree of files, directories and links.

A place is the list of names that leads to it from the root; the root is always a directory.  What a
file holds is kept under a number, so that a file can stand at several places.  A link stands for
another path, which is followed from the directory of the link.

A path is followed name by name from the working directory or the root.  Every name but the last has
to lead to a directory that may be entered, and so has the last if a slash follows it.  Names and
paths have a greatest length, in bytes, and on the way of a path there is a greatest number of
links.

A file is written in two steps, of which each can fail: it is opened, which makes it if there is
none and empties it otherwise, and then it takes the bytes, perhaps not all of them.  Several
directories are made one after the other.  If one of them cannot be made, those before it stay.

Main definitions:

* `ModuleDeps.FileTree` — the files, directories and links, and the working directory;
* `ModuleDeps.FileTree.lookup?`, `ModuleDeps.FileTree.body` — what stands at a place, and what a
  file holds;
* `ModuleDeps.FileTree.locate` — the place that a path leads to;
* `ModuleDeps.FileTree.isFile`, `ModuleDeps.FileTree.isDirectory`, `ModuleDeps.FileTree.isPresent` —
  what a path names;
* `ModuleDeps.FileTree.readText`, `ModuleDeps.FileTree.create`, `ModuleDeps.FileTree.writeText`,
  `ModuleDeps.FileTree.createDirectory` — reading and changing the tree;
* `ModuleDeps.Room` — a limit to what can be written;
* `ModuleDeps.FileAttempt`, `ModuleDeps.FileTree.createDirectories` — what is left of several
  changes, and a directory with all those above it.

Main results:

* `ModuleDeps.FileTree.lookup?_put` — what stands at a place after something was put there;
* `ModuleDeps.FileTree.body_setBody` — what a file holds after it was given something to hold.
-/

import ModuleDeps.Fault
import ModuleDeps.Files.Path

set_option relaxedAutoImplicit false
set_option autoImplicit false

namespace ModuleDeps

/-! ### Files and directories -/

/-- The names that lead from the root to a file, a directory or a link. -/
abbrev Place := List RawText

/-- Why a file or directory cannot be used, as far as it cannot. -/
structure Bars where
  /-- Why it cannot be read. -/
  reading : Option FileFault
  /-- Why it cannot be written; for a directory, why nothing new can be put into it. -/
  writing : Option FileFault
  /-- Why the way of a path cannot lead through it. -/
  entering : Option FileFault
  deriving DecidableEq, Repr

/-- No bars at all. -/
def Bars.free : Bars := ⟨none, none, none⟩

/-- A file without its places. -/
structure FileBody where
  /-- What is read from it. -/
  bytes : List UInt8
  /-- Does it keep what is written to it?  Other files are devices. -/
  isRegular : Bool
  /-- Why it cannot be used, as far as it cannot. -/
  bars : Bars
  deriving DecidableEq, Repr

/-- A regular file with the given bytes. -/
def FileBody.ofBytes (bytes : List UInt8) : FileBody := ⟨bytes, true, .free⟩

/-- What stands at a place. -/
inductive FileEntry where
  /-- A file. -/
  | file (number : Nat)
  /-- A directory. -/
  | directory (bars : Bars)
  /-- A link to the given path. -/
  | link (path : RawText)
  deriving DecidableEq, Repr

/-- The number of a file. -/
def FileEntry.number? : FileEntry → Option Nat
  | .file number => some number
  | _ => none

/-- Files, directories and links, with a working directory. -/
structure FileTree where
  /-- The working directory. -/
  workingDirectory : Place
  /-- Why the root cannot be used, as far as it cannot. -/
  root : Bars
  /-- What stands at the places other than the root. -/
  entries : List (Place × FileEntry)
  /-- The files by their numbers; one that is missing here is empty. -/
  bodies : List (Nat × FileBody)

namespace FileTree

/-- What stands at a place. -/
def lookup? (t : FileTree) (place : Place) : Option FileEntry :=
  if place.isEmpty then some (.directory t.root) else (t.entries.find? (·.1 == place)).map (·.2)

/-- The tree with something put at a place. -/
def put (t : FileTree) (place : Place) (entry : FileEntry) : FileTree :=
  { t with entries := (place, entry) :: t.entries.filter (·.1 != place) }

/-- What was put at a place stands there, and the other places keep what they had. -/
theorem lookup?_put (t : FileTree) {place : Place} (h : place ≠ []) (entry : FileEntry)
    (other : Place) :
    (t.put place entry).lookup? other = if other = place then some entry else t.lookup? other := by
  by_cases ho : other = place
  · subst ho
    simp [lookup?, put, h]
  · have hne : (place == other) = false := by simp [Ne.symm ho]
    unfold lookup? put
    simp only [ho, if_false, List.find?_cons, hne]
    rw [List.find?_filter]
    congr 3
    funext e
    by_cases he : e.1 = other
    · simp [he, ho]
    · simp [he]

/-- The file with a number. -/
def body (t : FileTree) (number : Nat) : FileBody :=
  ((t.bodies.find? (·.1 == number)).map (·.2)).getD (.ofBytes [])

/-- The tree with another file under a number. -/
def setBody (t : FileTree) (number : Nat) (file : FileBody) : FileTree :=
  { t with bodies := (number, file) :: t.bodies.filter (·.1 != number) }

/-- The file that was given a number is found under it, and the others are what they were. -/
theorem body_setBody (t : FileTree) (number : Nat) (file : FileBody) (other : Nat) :
    (t.setBody number file).body other = if other = number then file else t.body other := by
  by_cases ho : other = number
  · subst ho
    simp [body, setBody]
  · have hne : (number == other) = false := by simp [Ne.symm ho]
    unfold body setBody
    simp only [ho, if_false, List.find?_cons, hne]
    rw [List.find?_filter]
    congr 4
    funext e
    by_cases he : e.1 = other
    · simp [he, ho]
    · simp [he]

/-- A number that no file has. -/
def unused (t : FileTree) : Nat :=
  ((t.entries.filterMap fun e => e.2.number?) ++ t.bodies.map (·.1)).foldl max 0 + 1

/-! ### Ways -/

/-- One step from a directory. -/
def child (place : Place) (name : RawText) : Place :=
  if Path.isVoid name then place
  else if name == ".." then place.dropLast
  else place ++ [name]

/-- The greatest number of bytes in a name. -/
def maxNameSize : Nat := 255

/-- The greatest number of bytes in a path. -/
def maxPathSize : Nat := 4095

/-- The greatest number of links on the way of a path. -/
def maxLinks : Nat := 40

/-- Checks that a name can be looked for at a place. -/
def enter (t : FileTree) (place : Place) (name : RawText) : Except FileFault Unit :=
  match t.lookup? place with
  | none => .error .notFound
  | some (.directory bars) =>
    match bars.entering with
    | some cause => .error cause
    | none => if maxNameSize < name.bytes.length then .error .nameTooLong else .ok ()
  | some _ => .error .notDirectory

/-- Where a path leads. -/
structure Target where
  /-- The place. -/
  place : Place
  /-- Does a slash follow the last name of the path? -/
  slashed : Bool
  deriving DecidableEq, Repr

/-- The place from which a path is followed. -/
def start (directory : Place) (path : RawText) : Place :=
  if Path.isAbsolute path then [] else directory

/-- Follows names from a place up to the first link, where `jump` goes on; a link at the very end is
followed only if it is `asked` for. -/
def follow (t : FileTree) (asked : Bool)
    (jump : Place → List RawText → Bool → Except FileFault Target) :
    Place → List RawText → Bool → Except FileFault Target
  | place, [], _ => .ok ⟨place, true⟩
  | place, name :: rest, slashed =>
    (t.enter place name).bind fun _ =>
      match t.lookup? (child place name) with
      | none => if rest.isEmpty then .ok ⟨child place name, slashed⟩ else .error .notFound
      | some (.link path) =>
        if rest.isEmpty && !asked then .ok ⟨child place name, slashed⟩
        else jump (start place path) (Path.names path ++ rest)
          (slashed || (rest.isEmpty && Path.isSlashed path))
      | some _ =>
        if rest.isEmpty then .ok ⟨child place name, slashed⟩
        else follow t asked jump (child place name) rest slashed

/-- Follows names and at most the given number of links from a place. -/
def resolve (t : FileTree) (asked : Bool) :
    Nat → Place → List RawText → Bool → Except FileFault Target
  | 0 => t.follow asked fun _ _ _ => .error .tooManyLinks
  | links + 1 => t.follow asked (resolve t asked links)

/-- The text for a path that no file system takes. -/
def nulText : String := "file name contained an unexpected NUL byte"

/-- The place that a path leads to; nothing has to stand there yet. -/
def locate (t : FileTree) (asked : Bool) (path : RawText) : Except FileFault Target :=
  if path.isEmpty then .error .notFound
  else if path.bytes.contains 0 then .error (.other nulText)
  else if maxPathSize < path.bytes.length then .error .nameTooLong
  else t.resolve asked maxLinks (start t.workingDirectory path) (Path.names path)
    (Path.isSlashed path)

/-! ### What a path names -/

/-- What a path names. -/
def find (t : FileTree) (path : RawText) : Except FileFault FileEntry :=
  (t.locate true path).bind fun target =>
    match t.lookup? target.place with
    | none => .error .notFound
    | some (.directory bars) => .ok (.directory bars)
    | some entry => if target.slashed then .error .notDirectory else .ok entry

/-- Does a path name a regular file? -/
def isFile (t : FileTree) (path : RawText) : Bool :=
  match t.find path with
  | .ok (.file number) => (t.body number).isRegular
  | _ => false

/-- Does a path name a directory? -/
def isDirectory (t : FileTree) (path : RawText) : Bool :=
  match t.find path with
  | .ok (.directory _) => true
  | _ => false

/-- Does a path name anything? -/
def isPresent (t : FileTree) (path : RawText) : Bool :=
  (t.find path).toBool

/-- The text of the file that a path names. -/
def readText (t : FileTree) (path : RawText) : Except FileFault String :=
  (t.find path).bind fun
    | .link _ => .error .tooManyLinks
    | .directory bars => .error (bars.reading.getD .isDirectory)
    | .file number =>
      match (t.body number).bars.reading with
      | some cause => .error cause
      | none =>
        match (RawText.mk (t.body number).bytes).text? with
        | some text => .ok text
        | none => .error .notText

end FileTree

/-! ### Several changes -/

/-- What is left of several changes, of which the last one may have failed. -/
structure FileAttempt (ε : Type) where
  /-- The files, with the changes that did not fail. -/
  files : FileTree
  /-- Did all changes succeed? -/
  outcome : Except ε Unit

namespace FileAttempt

/-- More changes, if none has failed. -/
def andThen {ε : Type} (a : FileAttempt ε) (next : FileTree → FileAttempt ε) : FileAttempt ε :=
  match a.outcome with
  | .ok _ => next a.files
  | .error _ => a

/-- The same attempt with another account of its failure. -/
def mapError {ε δ : Type} (f : ε → δ) (a : FileAttempt ε) : FileAttempt δ :=
  ⟨a.files, a.outcome.mapError f⟩

end FileAttempt

/-! ### Writing -/

/-- A limit to what can be written. -/
structure Room where
  /-- The number of bytes that are taken. -/
  size : Nat
  /-- Why no more are taken. -/
  cause : FileFault
  deriving DecidableEq, Repr

namespace Room

/-- The bytes that are taken where there may be a limit. -/
def taken (room : Option Room) (bytes : List UInt8) : List UInt8 :=
  match room with
  | none => bytes
  | some r => bytes.take r.size

/-- Are all bytes taken where there may be a limit? -/
def outcome (room : Option Room) (bytes : List UInt8) : Except FileFault Unit :=
  match room with
  | none => .ok ()
  | some r => if r.size < bytes.length then .error r.cause else .ok ()

/-- Where nothing fails, all bytes are taken. -/
theorem taken_of_outcome {room : Option Room} {bytes : List UInt8}
    (h : outcome room bytes = .ok ()) : taken room bytes = bytes := by
  cases room with
  | none => rfl
  | some r =>
      rw [outcome] at h
      by_cases hsize : r.size < bytes.length
      · rw [if_pos hsize] at h
        cases h
      · exact List.take_of_length_le (Nat.le_of_not_lt hsize)

/-- What is taken is a beginning of what there is. -/
theorem taken_prefix (room : Option Room) (bytes : List UInt8) : taken room bytes <+: bytes := by
  cases room with
  | none => exact List.prefix_rfl
  | some r => exact List.take_prefix _ _

end Room

namespace FileTree

/-- Why a directory cannot be used, as far as it cannot. -/
def barsAt (t : FileTree) (place : Place) : Bars :=
  match t.lookup? place with
  | some (.directory bars) => bars
  | _ => .free

/-- The tree with bytes in a file, if it keeps them. -/
def fill (t : FileTree) (number : Nat) (bytes : List UInt8) : FileTree :=
  if (t.body number).isRegular then t.setBody number { t.body number with bytes } else t

/-- Opens the file that a path names, to write it: the tree with this file, now empty, and its
number.  The file is made if there is none. -/
def create (t : FileTree) (path : RawText) : Except FileFault (FileTree × Nat) :=
  (t.locate true path).bind fun target =>
    if target.slashed then .error .isDirectory
    else
      match t.lookup? target.place with
      | some (.directory _) => .error .isDirectory
      | some (.link _) => .error .tooManyLinks
      | some (.file number) =>
        match (t.body number).bars.writing with
        | some cause => .error cause
        | none => .ok (t.fill number [], number)
      | none =>
        match (t.barsAt target.place.dropLast).writing with
        | some cause => .error cause
        | none =>
          .ok ((t.put target.place (.file t.unused)).setBody t.unused (.ofBytes []), t.unused)

/-- Writes a text to the file that a path names; there may be a limit to the bytes that are taken.
What was taken before a failure stays in the file. -/
def writeText (t : FileTree) (room : Option Room) (path : RawText) (text : String) :
    FileAttempt FileFault :=
  match t.create path with
  | .error cause => ⟨t, .error cause⟩
  | .ok (opened, number) =>
    let bytes := (RawText.ofText text).bytes
    ⟨opened.fill number (Room.taken room bytes), Room.outcome room bytes⟩

/-- The text for a place that is taken. -/
def takenText : String := "File exists (os error 17)"

/-- The tree with a new directory. -/
def createDirectory (t : FileTree) (path : RawText) : Except FileFault FileTree :=
  (t.locate false path).bind fun target =>
    match t.lookup? target.place with
    | some _ => .error (.other takenText)
    | none =>
      match (t.barsAt target.place.dropLast).writing with
      | some cause => .error cause
      | none => .ok (t.put target.place (.directory .free))

/-- A directory at a path, whether it is new or not. -/
def ensureDirectory (t : FileTree) (path : RawText) : FileAttempt FileFault :=
  match t.createDirectory path with
  | .ok t' => ⟨t', .ok ()⟩
  | .error cause => ⟨t, if t.isDirectory path then .ok () else .error cause⟩

/-- The directory that a path names, after those above it. -/
def createDirectories (t : FileTree) (path : RawText) : FileAttempt FileFault :=
  if path.isEmpty then ⟨t, .ok ()⟩
  else
    match t.ensureDirectory path with
    | ⟨_, .error .notFound⟩ =>
      match _ : Path.parent? path with
      | none => ⟨t, .error (.other "failed to create whole tree")⟩
      | some above => (createDirectories t above).andThen (·.ensureDirectory path)
    | attempt => attempt
termination_by path.bytes.length
decreasing_by exact Path.length_parent?_lt ‹_›

end FileTree

end ModuleDeps
