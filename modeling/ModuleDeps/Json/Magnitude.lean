/-
How large a number of a JSON text is.

The digits of a number are gathered in a word of 64 bits.  From the first digit of the part before
the point that does not fit any more, digits of that part count as zeros, and from the first one of
the part behind the point digits are left out.  The number is then the double next to the word times
the double next to the power of ten, so that it can be too large although the number that is written
is not quite.

Main definitions:

* `ModuleDeps.Json.Magnitude` — a word and a power of ten;
* `ModuleDeps.Json.Magnitude.ofDigits` — that of the digits before and behind a point;
* `ModuleDeps.Json.Magnitude.isFinite` — is the product a double?

Main results:

* `ModuleDeps.Json.Magnitude.word_ofDigits_lt` — what is gathered is a word.
-/

import ModuleDeps.Decimal.Double
import ModuleDeps.Json.Basic
import ModuleDeps.Text.Count

set_option relaxedAutoImplicit false
set_option autoImplicit false

namespace ModuleDeps.Json

/-- The number `word * 10 ^ scale`. -/
structure Magnitude where
  /-- The digits that were gathered. -/
  word : Nat
  /-- The exponent of ten. -/
  scale : Int
  deriving DecidableEq, Repr

namespace Magnitude

/-- Gathers the digits before the point. -/
def addWhole (m : Magnitude) : List Char → Magnitude
  | [] => m
  | c :: cs =>
    if 10 * m.word + digitValue c < Text.countLimit then
      addWhole ⟨10 * m.word + digitValue c, m.scale⟩ cs
    else ⟨m.word, m.scale + (cs.length + 1)⟩

/-- Gathers the digits behind the point. -/
def addFraction (m : Magnitude) : List Char → Magnitude
  | [] => m
  | c :: cs =>
    if 10 * m.word + digitValue c < Text.countLimit then
      addFraction ⟨10 * m.word + digitValue c, m.scale - 1⟩ cs
    else m

/-- The magnitude of the digits before and behind a point. -/
def ofDigits (whole fraction : List Char) : Magnitude :=
  (addWhole ⟨0, 0⟩ whole).addFraction fraction

theorem word_addWhole_lt {m : Magnitude} (h : m.word < Text.countLimit) (cs : List Char) :
    (m.addWhole cs).word < Text.countLimit := by
  induction cs generalizing m with
  | nil => exact h
  | cons c cs ih =>
      rw [addWhole]
      split
      · next hc => exact ih hc
      · exact h

theorem word_addFraction_lt {m : Magnitude} (h : m.word < Text.countLimit) (cs : List Char) :
    (m.addFraction cs).word < Text.countLimit := by
  induction cs generalizing m with
  | nil => exact h
  | cons c cs ih =>
      rw [addFraction]
      split
      · next hc => exact ih hc
      · exact h

/-- What is gathered is a word. -/
theorem word_ofDigits_lt (whole fraction : List Char) :
    (ofDigits whole fraction).word < Text.countLimit :=
  word_addFraction_lt (word_addWhole_lt (by decide) whole) fraction

/-- The greatest power of ten that is a double. -/
def maxScale : Int := 308

/-- The least number that is too large for a double: halfway between the largest double and the
next power of two. -/
def doubleLimit : Nat := Nat.pow 2 1024 - Nat.pow 2 970

/-- Is the product of the word and the power of ten a double? -/
def isFinite (m : Magnitude) : Bool :=
  if m.word = 0 ∨ m.scale ≤ 0 then true
  else if maxScale < m.scale then false
  else Decimal.nearestDouble m.word * Decimal.nearestDouble (Nat.pow 10 m.scale.toNat) < doubleLimit

end Magnitude

end ModuleDeps.Json
