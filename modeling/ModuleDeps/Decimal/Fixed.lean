/-
Numbers with a fixed number of decimal places.

The exact value of a double is rounded to the given number of places, a half going to the even last
digit.  There is never an exponent, and a negative number keeps its sign even where it rounds to
zero.  A double that is not finite is written as a word.

Main definitions:

* `ModuleDeps.Decimal.fixed` — a double with a fixed number of places.
-/

import ModuleDeps.Decimal.Double

set_option relaxedAutoImplicit false
set_option autoImplicit false

namespace ModuleDeps.Decimal

/-- A natural number with its last `places` digits, of which there is at least one, behind a
point. -/
def withPoint (places n : Nat) : List Char :=
  let fraction := digits (n % Nat.pow 10 places)
  digits (n / Nat.pow 10 places) ++
    '.' :: (List.replicate (places - fraction.length) '0' ++ fraction)

/-- The word for a double that is not finite. -/
def notFinite (x : Float) : List Char :=
  if storedSignificand x = 0 then sign (isNegative x) ++ ['i', 'n', 'f'] else ['N', 'a', 'N']

/-- A double with a fixed number of places, at least one. -/
def fixed (places : Nat) (x : Float) : String :=
  let d := Double.ofFloat x
  let (num, den) := scaleTwo d.exponent (d.significand * Nat.pow 10 places) 1
  String.ofList (if isFinite x then sign d.negative ++ withPoint places (roundDiv num den)
    else notFinite x)

end ModuleDeps.Decimal
