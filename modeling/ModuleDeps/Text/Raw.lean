/-
Bytes that are usually those of a text.

A name or a path of the system is any sequence of bytes.  Most are the bytes of a text, but nothing
demands it, and one that is not can be used like any other.  Where it is shown, a mark stands for
each group of bytes that begins a character and does not end it, and for each byte that begins none.

Main definitions:

* `ModuleDeps.RawText` — bytes;
* `ModuleDeps.RawText.ofText`, `ModuleDeps.RawText.text?` — the bytes of a text, and the text of
  bytes if there is one;
* `ModuleDeps.RawText.shown` — bytes as they are shown.

Main results:

* `ModuleDeps.RawText.text?_ofText`, `ModuleDeps.RawText.shown_ofText` — the bytes of a text are
  read and shown as this text.
-/

set_option relaxedAutoImplicit false
set_option autoImplicit false

namespace ModuleDeps

/-- Bytes that are usually those of a text. -/
structure RawText where
  /-- The bytes. -/
  bytes : List UInt8
  deriving DecidableEq, Repr

namespace RawText

/-- The bytes of a text. -/
def ofText (text : String) : RawText :=
  ⟨text.toUTF8.data.toList⟩

instance : Coe String RawText := ⟨ofText⟩

/-- The text with the given bytes, if they are those of a text. -/
def text? (raw : RawText) : Option String :=
  String.fromUTF8? ⟨raw.bytes.toArray⟩

/-- The bytes of a text are read as this text. -/
@[simp] theorem text?_ofText (text : String) : (ofText text).text? = some text := by
  have hbytes : (⟨(ofText text).bytes.toArray⟩ : ByteArray) = text.toUTF8 := by
    rw [ofText, Array.toArray_toList]
  have hvalid : text.toUTF8.IsValidUTF8 := text.isValidUTF8
  rw [text?, hbytes, String.fromUTF8?, dif_pos hvalid]
  rfl

/-- Are there no bytes? -/
def isEmpty (raw : RawText) : Bool :=
  raw.bytes.isEmpty

/-! ### Showing -/

/-- How a character of several bytes goes on behind its first one: the number of bytes that follow,
the part of the first byte that counts, and the bounds of the second one. -/
def beginning? (first : UInt8) : Option (Nat × Nat × UInt8 × UInt8) :=
  let code := first.toNat
  if first < 0xC2 then none
  else if first < 0xE0 then some (1, code - 0xC0, 0x80, 0xBF)
  else if first == 0xE0 then some (2, code - 0xE0, 0xA0, 0xBF)
  else if first == 0xED then some (2, code - 0xE0, 0x80, 0x9F)
  else if first < 0xF0 then some (2, code - 0xE0, 0x80, 0xBF)
  else if first == 0xF0 then some (3, code - 0xF0, 0x90, 0xBF)
  else if first < 0xF4 then some (3, code - 0xF0, 0x80, 0xBF)
  else if first == 0xF4 then some (3, code - 0xF0, 0x80, 0x8F)
  else none

/-- The bytes, at most the given number, that go on with a character; bounds hold for the first of
them. -/
def goingOn : Nat → UInt8 → UInt8 → List UInt8 → List UInt8
  | 0, _, _, _ => []
  | _, _, _, [] => []
  | n + 1, low, high, b :: rest =>
    if low ≤ b && b ≤ high then b :: goingOn n 0x80 0xBF rest else []

/-- The mark for bytes that are no character. -/
def mark : Char := Char.ofNat 0xFFFD

/-- The first character of bytes as it is shown, and how many bytes behind the first one belong to
it. -/
def firstShown (first : UInt8) (rest : List UInt8) : Char × Nat :=
  if first < 0x80 then (Char.ofNat first.toNat, 0)
  else
    match beginning? first with
    | none => (mark, 0)
    | some (count, code, low, high) =>
      let more := goingOn count low high rest
      if more.length < count then (mark, more.length)
      else (Char.ofNat (more.foldl (fun n b => 64 * n + (b.toNat - 0x80)) code), count)

/-- The characters that are shown for bytes. -/
def shownChars : List UInt8 → List Char
  | [] => []
  | first :: rest =>
    let (c, count) := firstShown first rest
    c :: shownChars (rest.drop count)
termination_by bytes => bytes.length
decreasing_by simp only [List.length_drop, List.length_cons]; omega

/-- Bytes as they are shown: as their text, if they have one. -/
def shown (raw : RawText) : String :=
  raw.text?.getD (String.ofList (shownChars raw.bytes))

@[simp] theorem shown_ofText (text : String) : (ofText text).shown = text := by
  rw [shown, text?_ofText, Option.getD_some]

end RawText

end ModuleDeps
