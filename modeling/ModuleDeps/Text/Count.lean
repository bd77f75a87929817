/-
Counts written in decimal.

Main definitions:

* `ModuleDeps.Text.countLimit` — counts stay below this number;
* `ModuleDeps.Text.count?` — the count that a text denotes.
-/

set_option relaxedAutoImplicit false
set_option autoImplicit false

namespace ModuleDeps.Text

/-- Counts stay below this number: a word has 64 bits. -/
def countLimit : Nat := Nat.pow 2 64

/-- The count that decimal digits denote: there is a digit, nothing else, and the count is not too
large. -/
def countOfDigits? (digits : List Char) : Option Nat :=
  let n := digits.foldl (fun n c => 10 * n + (c.toNat - '0'.toNat)) 0
  if !digits.isEmpty && digits.all Char.isDigit && n < countLimit then some n else none

/-- The count that a text denotes: decimal digits, with a plus sign in front of them or without. -/
def count? : List Char → Option Nat
  | '+' :: digits => countOfDigits? digits
  | digits => countOfDigits? digits

theorem countOfDigits?_lt {digits : List Char} {n : Nat} (h : countOfDigits? digits = some n) :
    n < countLimit := by
  unfold countOfDigits? at h
  simp only [Option.ite_none_right_eq_some, Bool.and_eq_true, decide_eq_true_eq,
    Option.some.injEq] at h
  omega

/-- Every count stays below the limit. -/
theorem count?_lt {cs : List Char} {n : Nat} (h : count? cs = some n) : n < countLimit := by
  unfold count? at h
  split at h <;> exact countOfDigits?_lt h

end ModuleDeps.Text
