/-
The shortest decimal number for a double.

Among the decimal numbers that are read back as the double, one with the fewest digits is chosen,
and among those the one nearest to the double.  It is written with a point as long as the point
falls near its digits, and with an exponent otherwise; a number without fraction keeps `.0`.

Main definitions:

* `ModuleDeps.Decimal.Digits` — digits with the place of the point;
* `ModuleDeps.Decimal.shortest` — the shortest decimal number for a positive double;
* `ModuleDeps.Decimal.shortestText` — the text of a double.
-/

import ModuleDeps.Decimal.Double

set_option relaxedAutoImplicit false
set_option autoImplicit false

namespace ModuleDeps.Decimal

/-- The number `value * 10 ^ scale`. -/
structure Digits where
  /-- The digits as one number. -/
  value : Nat
  /-- The exponent of ten. -/
  scale : Int
  deriving DecidableEq, Repr

/-- A fraction that a power of ten divides. -/
def divideTen (scale : Int) (num den : Nat) : Nat × Nat :=
  (num * Nat.pow 10 (-scale).toNat, den * Nat.pow 10 scale.toNat)

/-- The numbers that are read back as the double lie between `low / den` and `high / den`; the ends
belong to them if `closed`.  The double itself is `mid / den`. -/
structure Interval where
  /-- The lower end. -/
  low : Nat
  /-- The double. -/
  mid : Nat
  /-- The upper end. -/
  high : Nat
  /-- The common denominator. -/
  den : Nat
  /-- Do the ends belong to the interval? -/
  closed : Bool
  deriving DecidableEq, Repr

/-- The numbers that are read back as a positive double: those nearer to it than to its
neighbours. -/
def Interval.ofDouble (d : Double) : Interval :=
  let m := 4 * d.significand
  let below := if d.significand = Nat.pow 2 52 ∧ minExponent < d.exponent then m - 1 else m - 2
  let up := Nat.pow 2 (d.exponent - 2).toNat
  { low := below * up, mid := m * up, high := (m + 2) * up,
    den := Nat.pow 2 (2 - d.exponent).toNat, closed := d.significand % 2 == 0 }

/-- Does the number `value * 10 ^ scale` lie in the interval? -/
def Interval.holds (i : Interval) (digits : Digits) : Bool :=
  let n := digits.value * Nat.pow 10 digits.scale.toNat * i.den
  let ten := Nat.pow 10 (-digits.scale).toNat
  if i.closed then i.low * ten ≤ n && n ≤ i.high * ten
  else i.low * ten < n && n < i.high * ten

/-- The two neighbours of the double among the multiples of `10 ^ scale`. -/
def Interval.neighbours (i : Interval) (scale : Int) : Digits × Digits :=
  let (num, den) := divideTen scale i.mid i.den
  (⟨num / den, scale⟩, ⟨num / den + 1, scale⟩)

/-- Is the lower one of the two neighbours at least as near to the double as the upper one?  Where
both are equally near, the even one counts as nearer. -/
def Interval.lowerIsNearer (i : Interval) (scale : Int) : Bool :=
  let (num, den) := divideTen scale i.mid i.den
  roundDiv num den == num / den

/-- A multiple of `10 ^ scale` that is read back as the double, the nearer one of the two
neighbours if both are. -/
def Interval.onGrid? (i : Interval) (scale : Int) : Option Digits :=
  let (lower, upper) := i.neighbours scale
  let lowerHolds := lower.value != 0 && i.holds lower
  if lowerHolds && (i.lowerIsNearer scale || !i.holds upper) then some lower
  else if i.holds upper then some upper
  else none

/-- The first hit on ever finer grids. -/
def Interval.search (i : Interval) : Nat → Int → Option Digits
  | 0, _ => none
  | tries + 1, scale => (i.onGrid? scale).orElse fun _ => i.search tries (scale - 1)

/-- A bound on the number of decimal digits before the point of the double. -/
def Interval.wholeDigits (i : Interval) : Nat :=
  (digits (i.high / i.den)).length

/-- The digits without the zeros at their end. -/
def trimZeros (d : Digits) : Digits :=
  if h : d.value ≠ 0 ∧ d.value % 10 = 0 then
    have : d.value / 10 < d.value := Nat.div_lt_self (Nat.pos_of_ne_zero h.1) (by decide)
    trimZeros ⟨d.value / 10, d.scale + 1⟩
  else d
termination_by d.value

/-- The shortest decimal number that is read back as a positive double.  There is a hit on the grid
of `10 ^ (-324)` at the latest. -/
def shortest (d : Double) : Digits :=
  let i := Interval.ofDouble d
  trimZeros ((i.search 800 i.wholeDigits).getD ⟨0, 0⟩)

/-! ### The text -/

/-- The greatest number of digits before the point without an exponent. -/
def maxPositional : Int := 16

/-- The greatest number of zeros behind the point without an exponent. -/
def maxLeadingZeros : Int := 4

/-- The text of the number `value * 10 ^ scale`. -/
def Digits.text (d : Digits) : List Char :=
  let cs := digits d.value
  let point : Int := cs.length + d.scale
  if 0 ≤ d.scale ∧ point ≤ maxPositional then
    cs ++ List.replicate d.scale.toNat '0' ++ ['.', '0']
  else if 0 < point ∧ point ≤ maxPositional then
    cs.take point.toNat ++ '.' :: cs.drop point.toNat
  else if -maxLeadingZeros ≤ point ∧ point ≤ 0 then
    '0' :: '.' :: (List.replicate (-point).toNat '0' ++ cs)
  else
    let exponent := point - 1
    cs.take 1 ++ (if cs.length = 1 then [] else '.' :: cs.drop 1) ++
      'e' :: (if exponent < 0 then '-' else '+') :: digits exponent.natAbs

/-- The shortest text of a finite double. -/
def shortestText (x : Float) : String :=
  let d := Double.ofFloat x
  String.ofList (sign d.negative ++
    if d.significand = 0 then ['0', '.', '0'] else (shortest d).text)

end ModuleDeps.Decimal
