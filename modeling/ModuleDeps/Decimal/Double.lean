/-
The exact value of a double.

A finite double is a sign, a significand `m` and an exponent `q`, and has the value `m * 2 ^ q`.

Main definitions:

* `ModuleDeps.Decimal.Double` — sign, significand and exponent;
* `ModuleDeps.Decimal.Double.ofFloat` — those of a finite double;
* `ModuleDeps.Decimal.isFinite` — is a double finite?
* `ModuleDeps.Decimal.digits` — the decimal digits of a natural number;
* `ModuleDeps.Decimal.roundDiv` — a quotient rounded to the nearest integer;
* `ModuleDeps.Decimal.nearestDouble` — a natural number rounded to the nearest double.
-/

set_option relaxedAutoImplicit false
set_option autoImplicit false

namespace ModuleDeps.Decimal

/-- A finite double: its value is `significand * 2 ^ exponent`, with the sign. -/
structure Double where
  /-- Is the sign a minus?  Zero has a sign too. -/
  negative : Bool
  /-- The significand, below `2 ^ 53`. -/
  significand : Nat
  /-- The exponent of two. -/
  exponent : Int
  deriving DecidableEq, Repr

/-- The exponent of the smallest doubles. -/
def minExponent : Int := -1074

/-- The exponent of a double as it is stored. -/
def storedExponent (x : Float) : Nat :=
  x.toBits.toNat / Nat.pow 2 52 % Nat.pow 2 11

/-- The significand of a double as it is stored. -/
def storedSignificand (x : Float) : Nat :=
  x.toBits.toNat % Nat.pow 2 52

/-- Is the sign of a double a minus? -/
def isNegative (x : Float) : Bool :=
  x.toBits.toNat / Nat.pow 2 63 == 1

/-- Is a double finite?  The greatest exponent is kept for those that are infinite or no number. -/
def isFinite (x : Float) : Bool :=
  storedExponent x != 2047

/-- The value of a finite double. -/
def Double.ofFloat (x : Float) : Double :=
  if storedExponent x = 0 then ⟨isNegative x, storedSignificand x, minExponent⟩
  else ⟨isNegative x, storedSignificand x + Nat.pow 2 52, (storedExponent x : Int) - 1075⟩

/-- The decimal digits of a natural number. -/
def digits (n : Nat) : List Char :=
  Nat.toDigits 10 n

/-- The quotient of two natural numbers rounded to the nearest one; a half goes to the even one. -/
def roundDiv (num den : Nat) : Nat :=
  let quotient := num / den
  let rest := num % den
  if 2 * rest < den then quotient
  else if den < 2 * rest then quotient + 1
  else if quotient % 2 = 0 then quotient else quotient + 1

/-- The natural number next to a given one that has at most 53 bits up to its last one; of two that
are equally near, the one with the even significand. -/
def nearestDouble (n : Nat) : Nat :=
  let excess := n.log2 - 52
  roundDiv n (Nat.pow 2 excess) * Nat.pow 2 excess

/-- A fraction that a power of two multiplies. -/
def scaleTwo (exponent : Int) (num den : Nat) : Nat × Nat :=
  (num * Nat.pow 2 exponent.toNat, den * Nat.pow 2 (-exponent).toNat)

/-- The sign in front of a number. -/
def sign (negative : Bool) : List Char :=
  if negative then ['-'] else []

end ModuleDeps.Decimal
