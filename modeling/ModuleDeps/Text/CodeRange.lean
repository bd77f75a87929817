/-
Classes of characters given by intervals of code points.

A class such as "letter" is a list of intervals, both ends included, in increasing order.  The
order lets a look-up stop at the first interval that starts above the character.

Main definitions:

* `ModuleDeps.Text.CodeRange` — an interval of code points;
* `ModuleDeps.Text.CodeRange.holds` — does one of the intervals hold the character?
-/

set_option relaxedAutoImplicit false
set_option autoImplicit false

namespace ModuleDeps.Text

/-- An interval of code points, written `(first, last)`; both ends belong to it. -/
abbrev CodeRange := Nat × Nat

namespace CodeRange

/-- Does some interval of the list, which is in increasing order, hold the code point `n`? -/
def holdsCode : List CodeRange → Nat → Bool
  | [], _ => false
  | (first, last) :: rest, n =>
    if n < first then false else if n ≤ last then true else holdsCode rest n

/-- Does some interval of the list, which is in increasing order, hold the character? -/
def holds (ranges : List CodeRange) (c : Char) : Bool :=
  holdsCode ranges c.toNat

end CodeRange

end ModuleDeps.Text
