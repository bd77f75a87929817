/-
Counts in JSON.

A natural number is written by its decimal digits.  They are the literal of a number, since a zero
stands at the front only where it stands alone, and a count that fits in a word is never too large
to be read.  Reading its literal gives the count back.

Main definitions:

* `ModuleDeps.Json.withDigits` — a number with more digits behind it.

Main results:

* `ModuleDeps.Json.ofDigits_toDigits` — the digits of a number denote it;
* `ModuleDeps.Json.fits_ofNat` — a count is within the limits of reading;
* `ModuleDeps.Json.toWord?_ofNat` — **a count is read back**.
-/

import Mathlib
import ModuleDeps.Graph.Json
import ModuleDeps.Proofs.JsonScanning

set_option relaxedAutoImplicit false
set_option autoImplicit false

namespace ModuleDeps.Json

/-! ### Digits -/

/-- The number whose digits are those of `n` and then the given ones. -/
def withDigits (n : Nat) (cs : List Char) : Nat :=
  cs.foldl (fun n c => 10 * n + digitValue c) n

theorem withDigits_cons (n : Nat) (c : Char) (cs : List Char) :
    withDigits n (c :: cs) = withDigits (10 * n + digitValue c) cs := by
  rw [withDigits, List.foldl_cons, withDigits]

theorem ofDigits_eq (cs : List Char) : ofDigits cs = withDigits 0 cs := rfl

theorem ofDigits_concat (cs : List Char) (c : Char) :
    ofDigits (cs ++ [c]) = 10 * ofDigits cs + digitValue c := by
  simp [ofDigits]

theorem mul_pow_le_withDigits (n : Nat) (cs : List Char) :
    n * 10 ^ cs.length ≤ withDigits n cs := by
  induction cs generalizing n with
  | nil => simp [withDigits]
  | cons c cs ih =>
      have hstep : n * 10 ^ (c :: cs).length = 10 * n * 10 ^ cs.length := by
        rw [List.length_cons, pow_succ]
        ring
      rw [withDigits_cons, hstep]
      exact (Nat.mul_le_mul_right _ (Nat.le_add_right _ _)).trans (ih _)

theorem le_withDigits (n : Nat) (cs : List Char) : n ≤ withDigits n cs :=
  (Nat.le_mul_of_pos_right n (by positivity)).trans (mul_pow_le_withDigits n cs)

theorem digitValue_lt {c : Char} (h : c.isDigit = true) : digitValue c < 10 := by
  simp only [Char.isDigit, Bool.and_eq_true, decide_eq_true_eq, ge_iff_le] at h
  have hlow : 48 ≤ c.toNat := h.1
  have hhigh : c.toNat ≤ 57 := h.2
  have hzero : '0'.toNat = 48 := rfl
  rw [digitValue, hzero]
  omega

theorem withDigits_lt {cs : List Char} (h : ∀ c ∈ cs, c.isDigit = true) (n : Nat) :
    withDigits n cs < (n + 1) * 10 ^ cs.length := by
  induction cs generalizing n with
  | nil => simp [withDigits]
  | cons c cs ih =>
      have hc := digitValue_lt (h c List.mem_cons_self)
      have hcs := ih (fun d hd => h d (List.mem_cons_of_mem _ hd)) (10 * n + digitValue c)
      have hstep : (n + 1) * 10 ^ (c :: cs).length = 10 * (n + 1) * 10 ^ cs.length := by
        rw [List.length_cons, pow_succ]
        ring
      rw [withDigits_cons, hstep]
      exact hcs.trans_le (Nat.mul_le_mul_right _ (by omega))

theorem isDigits_toDigits (n : Nat) : IsDigits (Nat.toDigits 10 n) :=
  ⟨Nat.toDigits_ne_nil, fun _ hc => Nat.isDigit_of_mem_toDigits (by decide) (by decide) hc⟩

theorem digitValue_digitChar : ∀ n < 10, digitValue n.digitChar = n := by
  decide

/-- The digits of a number denote it. -/
theorem ofDigits_toDigits (n : Nat) : ofDigits (Nat.toDigits 10 n) = n := by
  induction n using Nat.strong_induction_on with
  | _ n ih =>
      rw [Nat.toDigits_eq_if (by decide)]
      by_cases hn : n < 10
      · rw [if_pos hn, ← List.nil_append [n.digitChar], ofDigits_concat, digitValue_digitChar n hn]
        simp [ofDigits]
      · rw [if_neg hn, ofDigits_concat, ih (n / 10) (by omega),
          digitValue_digitChar (n % 10) (by omega)]
        omega

/-- A zero at the front of the digits of a number stands alone. -/
theorem eq_nil_of_toDigits_eq {n : Nat} {rest : List Char} (h : Nat.toDigits 10 n = '0' :: rest) :
    rest = [] := by
  induction n using Nat.strong_induction_on generalizing rest with
  | _ n ih =>
      rw [Nat.toDigits_eq_if (by decide)] at h
      by_cases hn : n < 10
      · rw [if_pos hn] at h
        exact (List.cons.inj h).2.symm
      · obtain ⟨c, cs, hcs, -⟩ := isDigit_cases (isDigits_toDigits (n / 10))
        rw [if_neg hn, hcs] at h
        -- the digits before the last one would be a zero alone, so the number would be below ten
        have hc : c = '0' := (List.cons.inj h).1
        subst hc
        have hvalue := ofDigits_toDigits (n / 10)
        rw [hcs, ih (n / 10) (by omega) hcs] at hvalue
        have hzero : ofDigits ['0'] = 0 := rfl
        omega

theorem toDigits_ne_zero_cons {n : Nat} (h : n ≠ 0) (rest : List Char) :
    Nat.toDigits 10 n ≠ '0' :: rest := by
  intro hdigits
  have hvalue := ofDigits_toDigits n
  rw [hdigits, eq_nil_of_toDigits_eq hdigits] at hvalue
  exact h hvalue.symm

/-! ### Counts -/

/-- The literal of a natural number. -/
def Numeral.ofNat (n : Nat) : Numeral where
  sign := []
  whole := Nat.toDigits 10 n
  fraction := []
  exponent := []
  sign_ok := Or.inl rfl
  whole_ok := isDigits_toDigits n
  zero_ok _ h := eq_nil_of_toDigits_eq h
  fraction_ok := Or.inl rfl
  exponent_ok := Or.inl rfl

theorem addWhole_eq {m : Magnitude} {cs : List Char}
    (h : withDigits m.word cs < Text.countLimit) :
    m.addWhole cs = ⟨withDigits m.word cs, m.scale⟩ := by
  induction cs generalizing m with
  | nil => rfl
  | cons c cs ih =>
      rw [withDigits_cons] at h ⊢
      have hfits : 10 * m.word + digitValue c < Text.countLimit :=
        (le_withDigits _ cs).trans_lt h
      rw [Magnitude.addWhole, if_pos hfits]
      exact ih h

theorem scale_addFraction_le (m : Magnitude) (cs : List Char) :
    (m.addFraction cs).scale ≤ m.scale := by
  induction cs generalizing m with
  | nil => exact le_rfl
  | cons c cs ih =>
      rw [Magnitude.addFraction]
      split
      · have := ih ⟨10 * m.word + digitValue c, m.scale - 1⟩
        simp only at this
        omega
      · exact le_rfl

/-- A number is not too large if its digits before the point fit in a word and there is no
exponent. -/
theorem isFinite_of_whole {whole : List Char} (h : ofDigits whole < Text.countLimit)
    (fraction : List Char) : isFinite whole fraction 0 = true := by
  have hwhole : Magnitude.addWhole ⟨0, 0⟩ whole = ⟨ofDigits whole, 0⟩ := addWhole_eq h
  have hscale := scale_addFraction_le ⟨ofDigits whole, 0⟩ fraction
  have hsmall : ((Magnitude.addFraction ⟨ofDigits whole, 0⟩ fraction).scale + 0 : Int) ≤ 0 := by
    simpa using hscale
  rw [isFinite, Magnitude.ofDigits, hwhole, Magnitude.isFinite, if_pos (Or.inr hsmall)]

/-- **A count is within the limits of reading.** -/
theorem fits_ofNat {n : Nat} (h : n < Text.countLimit) (levels : Nat) :
    Fits levels (ofNat n) := by
  have hrange : (Numeral.ofNat n).InRange := by
    refine isFinite_of_whole ?_ []
    change ofDigits (Nat.toDigits 10 n) < Text.countLimit
    rwa [ofDigits_toDigits]
  rw [ofNat, Fits]
  refine ⟨Numeral.ofNat n, ?_, hrange⟩
  simp [Numeral.literal, Numeral.chars, Numeral.ofNat]

theorem toNat?_ofNat (n : Nat) : (ofNat n).toNat? = some n := by
  have hdigits := isDigits_toDigits n
  have hall : (Nat.toDigits 10 n).all Char.isDigit = true := List.all_eq_true.2 hdigits.2
  rw [ofNat, toNat?, natOfLiteral?, String.toList_ofList, hall, ofDigits_toDigits]
  simp [hdigits.1]

/-- **A count is read back.** -/
theorem toWord?_ofNat {n : Nat} (h : n < Text.countLimit) : (ofNat n).toWord? = some n := by
  rw [toWord?, toNat?_ofNat, Option.bind_some, if_pos h]

theorem lt_of_toWord? {v : Json} {n : Nat} (h : v.toWord? = some n) : n < Text.countLimit := by
  rw [toWord?] at h
  obtain ⟨m, -, hm⟩ := Option.bind_eq_some_iff.1 h
  by_cases hlt : m < Text.countLimit
  · rw [if_pos hlt] at hm
    cases hm
    exact hlt
  · rw [if_neg hlt] at hm
    cases hm

theorem ofNat_injective {m n : Nat} (h : ofNat m = ofNat n) : m = n := by
  have hm := toNat?_ofNat m
  rw [h, toNat?_ofNat] at hm
  exact (Option.some.inj hm).symm

end ModuleDeps.Json
