/-
Every finite double can be read back from JSON.

The shortest text of a double is the literal of a number.  It remains to be seen that it is never
too large to be read.  A reader multiplies the double next to the digits with the double next to the
power of ten, and each of the two may be a little above what it stands for.  So what is written lies
below the greatest double, but the product could still lie beyond it.  For all doubles but the two
greatest ones what is written is so small that both errors together do no harm; the two greatest
ones are computed.

Without an exponent nothing is multiplied, and the sixteen digits before the point fit in a word.

The search for the shortest decimal number goes through ever finer grids, from that of `10 ^ 310` at
most.  On that of `10 ^ (-324)` the upper neighbour of a double is always nearer to it than the next
double is, so the search hits before its tries are used up.

Main definitions:

* `ModuleDeps.Decimal.Digits.AtMost` — a decimal number is at most a natural number;
* `ModuleDeps.Decimal.Digits.InRange` — its text with an exponent is not too large;
* `ModuleDeps.Decimal.Double.Bounded` — a significand and an exponent are those of a finite double.

Main results:

* `ModuleDeps.Decimal.nearestDouble_le` — how far the nearest double can lie above a number;
* `ModuleDeps.Decimal.Double.Bounded.holds_shortest` — the search for the shortest decimal number of
  a double always hits, and what it hits is read back as the double;
* `ModuleDeps.Decimal.Double.Bounded.inRange_shortest` — the shortest decimal number of a double is
  not too large;
* `ModuleDeps.Decimal.isReadableNumber_shortestText` — **the text of a finite double is a number
  that is read**.
-/

import Mathlib
import ModuleDeps.Decimal.Shortest
import ModuleDeps.Proofs.JsonCounts

set_option relaxedAutoImplicit false
set_option autoImplicit false

namespace ModuleDeps.Decimal

open Json (Magnitude Numeral IsDigits IsReadableNumber)

/-! ### Rounding -/

/-- A rounded quotient is at most half too large. -/
theorem roundDiv_mul_le (num den : Nat) : 2 * (roundDiv num den * den) ≤ 2 * num + den := by
  have hsplit : den * (num / den) + num % den = num := Nat.div_add_mod num den
  have hlower : num / den * den = den * (num / den) := Nat.mul_comm _ _
  have hupper : (num / den + 1) * den = den * (num / den) + den := by
    rw [Nat.add_mul, hlower, Nat.one_mul]
  simp only [roundDiv]
  split
  · omega
  · split
    · omega
    · split
      · omega
      · omega

/-- The nearest double lies above a number by at most one part in `2 ^ 53`. -/
theorem nearestDouble_le (n : Nat) : 2 ^ 53 * nearestDouble n ≤ (2 ^ 53 + 1) * n := by
  have hround := roundDiv_mul_le n (Nat.pow 2 (n.log2 - 52))
  rw [← nearestDouble] at hround
  by_cases hsmall : n.log2 ≤ 52
  · -- the number is a double itself
    have hpow : Nat.pow 2 (n.log2 - 52) = 1 := by
      rw [Nat.sub_eq_zero_of_le hsmall]
    rw [hpow] at hround
    omega
  · have hne : n ≠ 0 := by
      rintro rfl
      exact hsmall (by decide)
    have hpow : Nat.pow 2 (n.log2 - 52) * 2 ^ 52 = 2 ^ n.log2 := by
      rw [Nat.pow_eq, ← pow_add, Nat.sub_add_cancel (by omega)]
    have hlog : 2 ^ n.log2 ≤ n := Nat.log2_self_le hne
    omega

/-! ### Decimal numbers -/

namespace Digits

/-- The decimal number is at most the bound. -/
def AtMost (d : Digits) (bound : Nat) : Prop :=
  d.value * 10 ^ d.scale.toNat ≤ bound * 10 ^ (-d.scale).toNat

theorem AtMost.mono {d : Digits} {a b : Nat} (h : d.AtMost a) (hab : a ≤ b) : d.AtMost b :=
  h.trans (Nat.mul_le_mul_right _ hab)

/-- The text with one digit before the point and an exponent is not too large. -/
def InRange (d : Digits) : Prop :=
  Json.isFinite ((digits d.value).take 1) ((digits d.value).drop 1)
    ((digits d.value).length + d.scale - 1) = true

instance (d : Digits) : Decidable d.InRange :=
  inferInstanceAs (Decidable (_ = true))

end Digits

/-- What is gathered behind the point are the first digits, as many as fit. -/
theorem exists_addFraction_eq (m : Magnitude) (cs : List Char) :
    ∃ left ≤ cs.length, (m.addFraction cs).scale = m.scale - (cs.length - left : Nat) ∧
      (m.addFraction cs).word * 10 ^ left ≤ Json.withDigits m.word cs := by
  induction cs generalizing m with
  | nil => exact ⟨0, le_rfl, by simp [Magnitude.addFraction], by simp [Magnitude.addFraction,
      Json.withDigits]⟩
  | cons c cs ih =>
      rw [Magnitude.addFraction]
      split
      · obtain ⟨left, hleft, hscale, hword⟩ := ih ⟨10 * m.word + Json.digitValue c, m.scale - 1⟩
        refine ⟨left, by simp only [List.length_cons]; omega, ?_, ?_⟩
        · rw [hscale, List.length_cons]
          simp only
          omega
        · rw [Json.withDigits_cons]
          exact hword
      · refine ⟨(c :: cs).length, le_rfl, by simp, ?_⟩
        exact Json.mul_pow_le_withDigits m.word (c :: cs)

/-- The first digits of a decimal number, with the power of ten that goes with them, are at most the
number itself. -/
theorem word_mul_le {d : Digits} {bound word left : Nat} (h : d.AtMost bound)
    (hword : word * 10 ^ left ≤ d.value) (hpos : 0 < (left : Int) + d.scale) :
    word * 10 ^ ((left : Int) + d.scale).toNat ≤ bound := by
  rw [Digits.AtMost] at h
  rcases le_or_gt 0 d.scale with hscale | hscale
  · have hpower : ((left : Int) + d.scale).toNat = left + d.scale.toNat := by omega
    have hnone : (-d.scale).toNat = 0 := by omega
    rw [hnone, pow_zero, mul_one] at h
    rw [hpower, pow_add, ← mul_assoc]
    exact (Nat.mul_le_mul_right _ hword).trans h
  · have hpower : left = ((left : Int) + d.scale).toNat + (-d.scale).toNat := by omega
    have hnone : d.scale.toNat = 0 := by omega
    rw [hnone, pow_zero, mul_one] at h
    have hboth := hword.trans h
    rw [hpower, pow_add, ← mul_assoc] at hboth
    exact Nat.le_of_mul_le_mul_right hboth (by positivity)

/-- The greatest numbers for which the errors of two roundings do no harm. -/
def safeBound : Nat :=
  (2 ^ 54 - 5) * 2 ^ 970

theorem mul_lt_doubleLimit {a b : Nat} (h : a * b ≤ safeBound) :
    nearestDouble a * nearestDouble b < Magnitude.doubleLimit := by
  have hab : 2 ^ 53 * nearestDouble a * (2 ^ 53 * nearestDouble b) ≤
      (2 ^ 53 + 1) * a * ((2 ^ 53 + 1) * b) :=
    Nat.mul_le_mul (nearestDouble_le a) (nearestDouble_le b)
  have hsafe : (2 ^ 53 + 1) * (2 ^ 53 + 1) * safeBound <
      2 ^ 53 * 2 ^ 53 * Magnitude.doubleLimit := by
    decide +kernel
  refine Nat.lt_of_mul_lt_mul_left (a := 2 ^ 53 * 2 ^ 53) ?_
  calc 2 ^ 53 * 2 ^ 53 * (nearestDouble a * nearestDouble b)
      = 2 ^ 53 * nearestDouble a * (2 ^ 53 * nearestDouble b) := by ring
    _ ≤ (2 ^ 53 + 1) * a * ((2 ^ 53 + 1) * b) := hab
    _ = (2 ^ 53 + 1) * (2 ^ 53 + 1) * (a * b) := by ring
    _ ≤ (2 ^ 53 + 1) * (2 ^ 53 + 1) * safeBound := Nat.mul_le_mul_left _ h
    _ < 2 ^ 53 * 2 ^ 53 * Magnitude.doubleLimit := hsafe

/-- A decimal number below the safe bound is not too large in its text with an exponent. -/
theorem inRange_of_atMost {d : Digits} (h : d.AtMost safeBound) : d.InRange := by
  obtain ⟨c, cs, hcs, hc⟩ := Json.isDigit_cases (Json.isDigits_toDigits d.value)
  have hdigits : digits d.value = c :: cs := hcs
  have hvalue : Json.withDigits (Json.digitValue c) cs = d.value := by
    have hof := Json.ofDigits_toDigits d.value
    rw [hcs, Json.ofDigits_eq, Json.withDigits_cons] at hof
    simpa using hof
  have hfirst : Magnitude.addWhole ⟨0, 0⟩ [c] = ⟨Json.digitValue c, 0⟩ := by
    have hlt : Json.digitValue c < 10 := Json.digitValue_lt hc
    have hfits : Json.withDigits 0 [c] < Text.countLimit := by
      have hlimit : 10 ≤ Text.countLimit := by decide
      simp only [Json.withDigits, List.foldl_cons, List.foldl_nil]
      omega
    rw [Json.addWhole_eq hfits]
    simp [Json.withDigits]
  obtain ⟨left, hleft, hscale, hword⟩ :=
    exists_addFraction_eq ⟨Json.digitValue c, 0⟩ cs
  rw [hvalue] at hword
  rw [Digits.InRange, hdigits, List.take_succ_cons, List.take_zero, List.drop_succ_cons,
    List.drop_zero, Json.isFinite, Magnitude.ofDigits, hfirst]
  generalize Magnitude.addFraction ⟨Json.digitValue c, 0⟩ cs = m at hscale hword ⊢
  have hexponent : m.scale + (((c :: cs).length : Int) + d.scale - 1) = left + d.scale := by
    simp only [hscale, List.length_cons]
    push_cast
    omega
  simp only [hexponent, Magnitude.isFinite]
  by_cases hzero : m.word = 0 ∨ (left : Int) + d.scale ≤ 0
  · rw [if_pos hzero]
  · rw [not_or, not_le] at hzero
    have hbound := word_mul_le h hword hzero.2
    have hscaleMax : ((left : Int) + d.scale).toNat < 309 := by
      refine (pow_lt_pow_iff_right₀ (a := 10) (by decide)).1 ?_
      have hone : 10 ^ ((left : Int) + d.scale).toNat ≤
          m.word * 10 ^ ((left : Int) + d.scale).toNat :=
        Nat.le_mul_of_pos_left _ (Nat.pos_of_ne_zero hzero.1)
      have hlimit : safeBound < 10 ^ 309 := by decide +kernel
      exact (hone.trans hbound).trans_lt hlimit
    have hmax : ¬Magnitude.maxScale < (left : Int) + d.scale := by
      rw [Magnitude.maxScale]
      omega
    rw [if_neg (by omega), if_neg hmax]
    simpa using mul_lt_doubleLimit hbound

/-! ### The shortest decimal number -/

namespace Interval

theorem holds_iff {i : Interval} {d : Digits} :
    i.holds d = true ↔
      if i.closed = true then
        i.low * 10 ^ (-d.scale).toNat ≤ d.value * 10 ^ d.scale.toNat * i.den ∧
          d.value * 10 ^ d.scale.toNat * i.den ≤ i.high * 10 ^ (-d.scale).toNat
      else
        i.low * 10 ^ (-d.scale).toNat < d.value * 10 ^ d.scale.toNat * i.den ∧
          d.value * 10 ^ d.scale.toNat * i.den < i.high * 10 ^ (-d.scale).toNat := by
  simp only [holds]
  split
  · simp only [Bool.and_eq_true, decide_eq_true_eq, Nat.pow_eq]
  · simp only [Bool.and_eq_true, decide_eq_true_eq, Nat.pow_eq]

theorem atMost_of_holds {i : Interval} {d : Digits} (h : i.holds d = true) (hden : 0 < i.den) :
    d.AtMost i.high := by
  have hhigh : d.value * 10 ^ d.scale.toNat * i.den ≤ i.high * 10 ^ (-d.scale).toNat := by
    rw [holds_iff] at h
    split at h
    · exact h.2
    · exact h.2.le
  exact (Nat.le_mul_of_pos_right _ hden).trans hhigh

theorem holds_of_onGrid? {i : Interval} {scale : Int} {d : Digits} (h : i.onGrid? scale = some d) :
    i.holds d = true ∧ d.value ≠ 0 := by
  simp only [onGrid?] at h
  split at h
  · next hlower =>
      cases h
      simp only [Bool.and_eq_true, bne_iff_ne, ne_eq] at hlower
      exact ⟨hlower.1.2, hlower.1.1⟩
  · split at h
    · next hupper =>
        cases h
        exact ⟨hupper, Nat.succ_ne_zero _⟩
    · cases h

theorem holds_of_search {i : Interval} {tries : Nat} {scale : Int} {d : Digits}
    (h : i.search tries scale = some d) : i.holds d = true ∧ d.value ≠ 0 := by
  induction tries generalizing scale with
  | zero => cases h
  | succ tries ih =>
      rw [search] at h
      cases hgrid : i.onGrid? scale with
      | none =>
          rw [hgrid] at h
          exact ih h
      | some found =>
          rw [hgrid] at h
          cases h
          exact holds_of_onGrid? hgrid

/-- The search hits at the latest on a grid on which there is a hit. -/
theorem isSome_search {i : Interval} {tries : Nat} {scale target : Int}
    (hgrid : (i.onGrid? target).isSome = true) (hle : target ≤ scale)
    (htries : scale < target + tries) : (i.search tries scale).isSome = true := by
  induction tries generalizing scale with
  | zero => omega
  | succ tries ih =>
      rw [search]
      cases hfirst : i.onGrid? scale with
      | some found => rfl
      | none =>
          have hne : target ≠ scale := by
            rintro rfl
            rw [hfirst] at hgrid
            cases hgrid
          exact ih (by omega) (by omega)

theorem isSome_onGrid?_of_holds {i : Interval} {scale : Int}
    (h : i.holds (i.neighbours scale).2 = true) : (i.onGrid? scale).isSome = true := by
  simp only [onGrid?, h, if_true]
  split
  · rfl
  · rfl

/-- Where the multiples of a power of ten lie closer together than the double and the upper end, the
upper neighbour of the double is read back as the double. -/
theorem holds_upper {i : Interval} {places : Nat} (hlow : i.low ≤ i.mid) (hden : 0 < i.den)
    (hclose : i.mid * 10 ^ places + i.den < i.high * 10 ^ places) :
    i.holds (i.neighbours (-places)).2 = true := by
  have hscale : (-(places : Int)).toNat = 0 := by omega
  have hplaces : (-(-(places : Int))).toNat = places := by omega
  have hmid := Nat.div_add_mod' (i.mid * 10 ^ places) i.den
  have hmod := Nat.mod_lt (i.mid * 10 ^ places) hden
  have hlow' := Nat.mul_le_mul_right (10 ^ places) hlow
  rw [holds_iff]
  simp only [neighbours, divideTen, hscale, hplaces, Nat.pow_eq, pow_zero, mul_one, Nat.add_mul,
    one_mul]
  split
  · omega
  · omega

/-- Digits with a zero behind them are the same number on the next finer grid. -/
theorem holds_mul_ten (i : Interval) (value : Nat) (scale : Int) :
    i.holds ⟨value * 10, scale⟩ = i.holds ⟨value, scale + 1⟩ := by
  rw [Bool.eq_iff_iff, holds_iff, holds_iff]
  simp only
  rcases le_or_gt 0 scale with hpos | hneg
  · have hup : (scale + 1).toNat = scale.toNat + 1 := by omega
    have hnone : (-(scale + 1)).toNat = (-scale).toNat := by omega
    rw [hup, hnone, pow_succ', ← mul_assoc value]
  · have hdown : (-scale).toNat = (-(scale + 1)).toNat + 1 := by omega
    have hnone : (scale + 1).toNat = scale.toNat := by omega
    rw [hdown, hnone, pow_succ, mul_right_comm value, mul_right_comm _ 10]
    simp only [← mul_assoc, Nat.mul_le_mul_right_iff, Nat.mul_lt_mul_right, Nat.zero_lt_succ]

end Interval

/-- Without the zeros at its end a number is the same. -/
theorem holds_trimZeros (i : Interval) (d : Digits) : i.holds (trimZeros d) = i.holds d := by
  fun_induction trimZeros d with
  | case1 d hzeros hlt ih =>
      rw [ih, ← i.holds_mul_ten, Nat.div_mul_cancel (Nat.dvd_of_mod_eq_zero hzeros.2)]
  | case2 d hzeros => rfl

theorem trimZeros_ne_zero {d : Digits} (h : d.value ≠ 0) : (trimZeros d).value ≠ 0 := by
  fun_induction trimZeros d with
  | case1 d hzeros hlt ih => exact ih (by simp only; omega)
  | case2 d hzeros => exact h

/-! ### Doubles -/

/-- The significand and the exponent are those of a finite double. -/
structure Double.Bounded (d : Double) : Prop where
  significand_lt : d.significand < 2 ^ 53
  le_exponent : minExponent ≤ d.exponent
  exponent_le : d.exponent ≤ 971

theorem bounded_ofFloat {x : Float} (h : isFinite x = true) : (Double.ofFloat x).Bounded := by
  have hsignificand : storedSignificand x < 2 ^ 52 := Nat.mod_lt _ (by decide)
  have hexponent : storedExponent x < 2 ^ 11 := Nat.mod_lt _ (by decide)
  have hfinite : storedExponent x ≠ 2047 := by
    simpa [isFinite] using h
  have hpow : Nat.pow 2 52 = 2 ^ 52 := rfl
  rw [Double.ofFloat]
  split
  · exact ⟨by simp only; omega, le_rfl, (by decide : minExponent ≤ 971)⟩
  · refine ⟨by simp only [hpow]; omega, ?_, by simp only; omega⟩
    rw [minExponent]
    simp only
    omega

theorem low_ofDouble_le (d : Double) : (Interval.ofDouble d).low ≤ (Interval.ofDouble d).mid := by
  refine Nat.mul_le_mul_right _ ?_
  split
  · exact Nat.sub_le _ _
  · exact Nat.sub_le _ _

theorem mid_ofDouble_add_le (d : Double) :
    (Interval.ofDouble d).mid + 2 ≤ (Interval.ofDouble d).high := by
  have hup : 0 < Nat.pow 2 (d.exponent - 2).toNat := Nat.pow_pos (by decide)
  simp only [Interval.ofDouble, Nat.add_mul]
  omega

/-- Next to a double lies a multiple of `10 ^ (-324)` that is read back as the double. -/
theorem Double.Bounded.isSome_onGrid? {d : Double} (h : d.Bounded) :
    ((Interval.ofDouble d).onGrid? (-324)).isSome = true := by
  have hden : (Interval.ofDouble d).den < 2 * 10 ^ 324 := by
    have hle := h.le_exponent
    rw [minExponent] at hle
    have hpow : 2 ^ (2 - d.exponent).toNat ≤ 2 ^ 1076 := pow_le_pow_right₀ (by decide) (by omega)
    have hlt : 2 ^ 1076 < 2 * 10 ^ 324 := by decide +kernel
    exact hpow.trans_lt hlt
  have hclose : (Interval.ofDouble d).mid * 10 ^ 324 + (Interval.ofDouble d).den <
      (Interval.ofDouble d).high * 10 ^ 324 := by
    have hends := Nat.mul_le_mul_right (10 ^ 324) (mid_ofDouble_add_le d)
    rw [Nat.add_mul] at hends
    exact (Nat.add_lt_add_left hden _).trans_le hends
  have hpos : 0 < (Interval.ofDouble d).den := Nat.pow_pos (by decide)
  exact Interval.isSome_onGrid?_of_holds
    (@Interval.holds_upper _ 324 (low_ofDouble_le d) hpos hclose)

/-- The search begins on a grid that is not too far away. -/
theorem Double.Bounded.wholeDigits_le {d : Double} (h : d.Bounded) :
    (Interval.ofDouble d).wholeDigits ≤ 310 := by
  refine (Nat.length_toDigits_le_iff (by decide) (by decide)).2 ?_
  have hfactor : 4 * d.significand + 2 ≤ 4 * 2 ^ 53 := by
    have := h.significand_lt
    omega
  have hpower : 2 ^ (d.exponent - 2).toNat ≤ 2 ^ 969 := by
    have := h.exponent_le
    exact pow_le_pow_right₀ (by decide) (by omega)
  have hlimit : 4 * 2 ^ 53 * 2 ^ 969 < 10 ^ 310 := by decide +kernel
  calc (Interval.ofDouble d).high / (Interval.ofDouble d).den
      ≤ (Interval.ofDouble d).high := Nat.div_le_self _ _
    _ ≤ 4 * 2 ^ 53 * 2 ^ 969 := Nat.mul_le_mul hfactor hpower
    _ < 10 ^ 310 := hlimit

/-- The search always hits: its tries suffice. -/
theorem Double.Bounded.isSome_search {d : Double} (h : d.Bounded) :
    ((Interval.ofDouble d).search 800 (Interval.ofDouble d).wholeDigits).isSome = true := by
  have hwhole := h.wholeDigits_le
  exact Interval.isSome_search h.isSome_onGrid? (by omega) (by omega)

/-- **The shortest decimal number of a double is read back as the double.** -/
theorem Double.Bounded.holds_shortest {d : Double} (h : d.Bounded) :
    (Interval.ofDouble d).holds (shortest d) = true ∧ (shortest d).value ≠ 0 := by
  obtain ⟨found, hfound⟩ := Option.isSome_iff_exists.1 h.isSome_search
  obtain ⟨hholds, hvalue⟩ := Interval.holds_of_search hfound
  simp only [shortest, hfound, Option.getD_some]
  exact ⟨(holds_trimZeros _ found).trans hholds, trimZeros_ne_zero hvalue⟩

theorem Double.Bounded.atMost_shortest {d : Double} (h : d.Bounded) :
    (shortest d).AtMost (Interval.ofDouble d).high :=
  Interval.atMost_of_holds h.holds_shortest.1 (Nat.pow_pos (by decide))

theorem Double.Bounded.high_le {d : Double} (h : d.Bounded)
    (hlast : d.exponent = 971 → d.significand ≤ 2 ^ 53 - 3) :
    (Interval.ofDouble d).high ≤ safeBound := by
  have hsignificand := h.significand_lt
  have hexponent := h.exponent_le
  have hhigh : (Interval.ofDouble d).high =
      (4 * d.significand + 2) * 2 ^ (d.exponent - 2).toNat := rfl
  rw [hhigh]
  by_cases heq : d.exponent = 971
  · have hpow : (d.exponent - 2).toNat = 969 := by omega
    have hbound : safeBound = (2 * (2 ^ 54 - 5)) * 2 ^ 969 := by decide +kernel
    have := hlast heq
    rw [hpow, hbound]
    exact Nat.mul_le_mul_right _ (by omega)
  · have hpow : (d.exponent - 2).toNat ≤ 968 := by omega
    have hbound : (4 * (2 ^ 53 - 1) + 2) * 2 ^ 968 ≤ safeBound := by decide +kernel
    have hfactor : 4 * d.significand + 2 ≤ 4 * (2 ^ 53 - 1) + 2 := by omega
    have hpower : 2 ^ (d.exponent - 2).toNat ≤ 2 ^ 968 := pow_le_pow_right₀ (by decide) hpow
    exact (Nat.mul_le_mul hfactor hpower).trans hbound

/-- The shortest decimal numbers of the two greatest doubles. -/
theorem inRange_shortest_greatest (negative : Bool) :
    (shortest ⟨negative, 2 ^ 53 - 1, 971⟩).InRange ∧
      (shortest ⟨negative, 2 ^ 53 - 2, 971⟩).InRange := by
  cases negative with
  | false => decide +kernel
  | true => decide +kernel

/-- **The shortest decimal number of a double is not too large.** -/
theorem Double.Bounded.inRange_shortest {d : Double} (h : d.Bounded) : (shortest d).InRange := by
  by_cases hlast : d.exponent = 971 → d.significand ≤ 2 ^ 53 - 3
  · exact inRange_of_atMost (h.atMost_shortest.mono (h.high_le hlast))
  · have hsignificand := h.significand_lt
    rw [Classical.not_imp] at hlast
    obtain ⟨negative, significand, exponent⟩ := d
    simp only at hlast hsignificand
    obtain ⟨rfl, hlarge⟩ := hlast
    obtain ⟨hfirst, hsecond⟩ := inRange_shortest_greatest negative
    have hcases : significand = 2 ^ 53 - 1 ∨ significand = 2 ^ 53 - 2 := by omega
    rcases hcases with rfl | rfl
    · exact hfirst
    · exact hsecond

/-! ### The text -/

/-- Parts of a literal make a number that is read, with or without a minus. -/
theorem isReadableNumber_of_parts {whole fraction exponent : List Char} (negative : Bool)
    (hwhole : IsDigits whole) (hzero : ∀ rest, whole = '0' :: rest → rest = [])
    (hfraction : fraction = [] ∨ ∃ digits, IsDigits digits ∧ fraction = '.' :: digits)
    (hexponent : exponent = [] ∨ ∃ mark sign digits, (mark = 'e' ∨ mark = 'E') ∧
      (sign = [] ∨ sign = ['+'] ∨ sign = ['-']) ∧ IsDigits digits ∧
        exponent = mark :: (sign ++ digits))
    (hrange : Json.isFinite whole (fraction.drop 1) (Json.exponentValue exponent) = true) :
    IsReadableNumber (String.ofList (sign negative ++ (whole ++ (fraction ++ exponent)))) := by
  have hsign : sign negative = [] ∨ sign negative = ['-'] := by
    cases negative with
    | false => exact Or.inl rfl
    | true => exact Or.inr rfl
  exact ⟨⟨sign negative, whole, fraction, exponent, hsign, hwhole, hzero, hfraction, hexponent⟩,
    rfl, hrange⟩

theorem isDigits_digits (n : Nat) : IsDigits (digits n) :=
  Json.isDigits_toDigits n

theorem isDigit_of_mem_zeros {count : Nat} {c : Char} (h : c ∈ List.replicate count '0') :
    c.isDigit = true := by
  rw [List.eq_of_mem_replicate h]
  rfl

/-- At most sixteen digits before the point fit in a word. -/
theorem ofDigits_lt_countLimit {whole : List Char} (h : ∀ c ∈ whole, c.isDigit = true)
    (hlength : whole.length ≤ 16) : Json.ofDigits whole < Text.countLimit := by
  have hlt := Json.withDigits_lt h 0
  have hpow : 10 ^ whole.length ≤ 10 ^ 16 := pow_le_pow_right₀ (by decide) hlength
  have hlimit : 10 ^ 16 < Text.countLimit := by decide
  rw [Json.ofDigits_eq]
  omega

theorem exponentValue_signed (e : Int) :
    Json.exponentValue ('e' :: (if e < 0 then '-' else '+') :: digits e.natAbs) = e := by
  by_cases he : e < 0
  · rw [if_pos he, Json.exponentValue, digits, Json.ofDigits_toDigits]
    omega
  · rw [if_neg he, Json.exponentValue, digits, Json.ofDigits_toDigits]
    omega

section Text

variable {d : Digits} (negative : Bool)

/-- A number without a fraction: zeros behind the digits, and one zero behind the point. -/
theorem isReadableNumber_whole (hzero : d.value = 0 → d.scale = 0) (hscale : 0 ≤ d.scale)
    (hpoint : ((digits d.value).length : Int) + d.scale ≤ 16) :
    IsReadableNumber (String.ofList (sign negative ++
      (digits d.value ++ List.replicate d.scale.toNat '0' ++ ['.', '0']))) := by
  have hall : ∀ c ∈ digits d.value ++ List.replicate d.scale.toNat '0', c.isDigit = true := by
    intro c hc
    rcases List.mem_append.1 hc with hc | hc
    · exact (isDigits_digits d.value).2 c hc
    · exact isDigit_of_mem_zeros hc
  have hlength : (digits d.value ++ List.replicate d.scale.toNat '0').length ≤ 16 := by
    rw [List.length_append, List.length_replicate]
    omega
  have hfirst : ∀ rest, digits d.value ++ List.replicate d.scale.toNat '0' = '0' :: rest →
      rest = [] := by
    intro rest hrest
    by_cases hvalue : d.value = 0
    · rw [hvalue, hzero hvalue] at hrest
      exact (List.cons.inj hrest).2.symm
    · obtain ⟨c, cs, hcs, -⟩ := Json.isDigit_cases (isDigits_digits d.value)
      rw [hcs] at hrest
      exact absurd ((List.cons.inj hrest).1 ▸ hcs) (Json.toDigits_ne_zero_cons hvalue cs)
  have hne : digits d.value ++ List.replicate d.scale.toNat '0' ≠ [] := by
    simp [(isDigits_digits d.value).1]
  rw [← List.append_nil ['.', '0']]
  exact isReadableNumber_of_parts negative ⟨hne, hall⟩ hfirst
    (Or.inr ⟨['0'], ⟨by simp, by simp⟩, rfl⟩) (Or.inl rfl)
    (Json.isFinite_of_whole (ofDigits_lt_countLimit hall hlength) ['0'])

/-- The point falls between two digits. -/
theorem isReadableNumber_split {place : Nat} (hvalue : d.value ≠ 0) (hpos : 0 < place)
    (hplace : place < (digits d.value).length) (hmax : place ≤ 16) :
    IsReadableNumber (String.ofList (sign negative ++
      ((digits d.value).take place ++ '.' :: (digits d.value).drop place))) := by
  have hall := (isDigits_digits d.value).2
  have hwhole : ∀ c ∈ (digits d.value).take place, c.isDigit = true := fun c hc =>
    hall c (List.mem_of_mem_take hc)
  have hlength : ((digits d.value).take place).length = place := by
    rw [List.length_take]
    omega
  have hne : (digits d.value).take place ≠ [] := by
    rw [← List.length_pos_iff, hlength]
    exact hpos
  have hrest : (digits d.value).drop place ≠ [] := by
    rw [← List.length_pos_iff, List.length_drop]
    omega
  have hfirst : ∀ rest, (digits d.value).take place = '0' :: rest → rest = [] := by
    intro rest htake
    have hcs := List.take_append_drop place (digits d.value)
    rw [htake] at hcs
    exact absurd hcs.symm (Json.toDigits_ne_zero_cons hvalue _)
  rw [← List.append_nil ('.' :: (digits d.value).drop place)]
  refine isReadableNumber_of_parts negative ⟨hne, hwhole⟩ hfirst
    (Or.inr ⟨_, ⟨hrest, fun c hc => hall c (List.mem_of_mem_drop hc)⟩, rfl⟩) (Or.inl rfl) ?_
  exact Json.isFinite_of_whole (ofDigits_lt_countLimit hwhole (hlength.trans_le hmax)) _

/-- Zeros stand between the point and the digits. -/
theorem isReadableNumber_zeros (count : Nat) :
    IsReadableNumber (String.ofList (sign negative ++
      '0' :: '.' :: (List.replicate count '0' ++ digits d.value))) := by
  have hall : ∀ c ∈ List.replicate count '0' ++ digits d.value, c.isDigit = true := by
    intro c hc
    rcases List.mem_append.1 hc with hc | hc
    · exact isDigit_of_mem_zeros hc
    · exact (isDigits_digits d.value).2 c hc
  have hne : List.replicate count '0' ++ digits d.value ≠ [] := by
    simp [(isDigits_digits d.value).1]
  rw [← List.append_nil ('.' :: _), ← List.singleton_append]
  exact isReadableNumber_of_parts negative ⟨by simp, by simp⟩
    (fun rest hrest => (List.cons.inj hrest).2.symm) (Or.inr ⟨_, ⟨hne, hall⟩, rfl⟩) (Or.inl rfl)
    (Json.isFinite_of_whole (by decide) _)

/-- One digit stands before the point, and there is an exponent. -/
theorem isReadableNumber_exponent (hrange : d.InRange) (e : Int)
    (he : ((digits d.value).length : Int) + d.scale - 1 = e) :
    IsReadableNumber (String.ofList (sign negative ++ ((digits d.value).take 1 ++
      (if (digits d.value).length = 1 then [] else '.' :: (digits d.value).drop 1) ++
        'e' :: (if e < 0 then '-' else '+') :: digits e.natAbs))) := by
  obtain ⟨c, cs, hcs, hc⟩ := Json.isDigit_cases (isDigits_digits d.value)
  have hall := (isDigits_digits d.value).2
  rw [Digits.InRange, he, ← exponentValue_signed e] at hrange
  rw [hcs] at hall hrange ⊢
  have hexponent : ∃ mark sign ds, (mark = 'e' ∨ mark = 'E') ∧
      (sign = [] ∨ sign = ['+'] ∨ sign = ['-']) ∧ IsDigits ds ∧
        'e' :: (if e < 0 then '-' else '+') :: digits e.natAbs = mark :: (sign ++ ds) := by
    refine ⟨'e', [if e < 0 then '-' else '+'], digits e.natAbs, Or.inl rfl, ?_,
      isDigits_digits _, rfl⟩
    by_cases hneg : e < 0
    · rw [if_pos hneg]
      exact Or.inr (Or.inr rfl)
    · rw [if_neg hneg]
      exact Or.inr (Or.inl rfl)
  have hfirst : ∀ rest, (c :: cs).take 1 = '0' :: rest → rest = [] := by
    intro rest hrest
    exact (List.cons.inj hrest).2.symm
  have hwhole : IsDigits ((c :: cs).take 1) := by
    refine ⟨by simp, fun x hx => ?_⟩
    rw [List.mem_singleton.1 hx]
    exact hc
  rw [List.append_assoc]
  by_cases hone : (c :: cs).length = 1
  · have hnil : cs = [] := List.length_eq_zero_iff.1 (by simpa using hone)
    subst hnil
    rw [if_pos hone]
    exact isReadableNumber_of_parts negative hwhole hfirst (Or.inl rfl) (Or.inr hexponent) hrange
  · have hne : cs ≠ [] := by
      rintro rfl
      exact hone rfl
    rw [if_neg hone]
    refine isReadableNumber_of_parts negative hwhole hfirst (Or.inr ⟨cs, ⟨hne, ?_⟩, rfl⟩)
      (Or.inr hexponent) hrange
    intro x hx
    exact hall x (List.mem_cons_of_mem _ hx)

end Text

/-- The text of a decimal number is a number that is read, if it is not too large where it has an
exponent, and zero has no scale. -/
theorem isReadableNumber_text {d : Digits} (negative : Bool) (hzero : d.value = 0 → d.scale = 0)
    (hrange : d.InRange) : IsReadableNumber (String.ofList (sign negative ++ d.text)) := by
  have hmax : maxPositional = 16 := rfl
  rw [Digits.text]
  by_cases hwhole : 0 ≤ d.scale ∧ ((digits d.value).length : Int) + d.scale ≤ maxPositional
  · rw [if_pos hwhole]
    exact isReadableNumber_whole negative hzero hwhole.1 hwhole.2
  rw [if_neg hwhole]
  by_cases hpoint : 0 < ((digits d.value).length : Int) + d.scale ∧
      ((digits d.value).length : Int) + d.scale ≤ maxPositional
  · rw [if_pos hpoint]
    have hvalue : d.value ≠ 0 := by
      intro hvalue
      have := hzero hvalue
      omega
    exact isReadableNumber_split negative hvalue (by omega) (by omega) (by omega)
  rw [if_neg hpoint]
  by_cases hzeros : -maxLeadingZeros ≤ ((digits d.value).length : Int) + d.scale ∧
      ((digits d.value).length : Int) + d.scale ≤ 0
  · rw [if_pos hzeros]
    exact isReadableNumber_zeros negative _
  · rw [if_neg hzeros]
    exact isReadableNumber_exponent negative hrange _ rfl

/-- **The text of a finite double is a number that is read.** -/
theorem isReadableNumber_shortestText {x : Float} (h : isFinite x = true) :
    IsReadableNumber (shortestText x) := by
  have hbounded := bounded_ofFloat h
  rw [shortestText]
  by_cases hnone : (Double.ofFloat x).significand = 0
  · have hzero : (⟨0, 0⟩ : Digits).text = ['0', '.', '0'] := by decide
    rw [if_pos hnone, ← hzero]
    exact isReadableNumber_text _ (fun _ => rfl) (by decide +kernel)
  · rw [if_neg hnone]
    exact isReadableNumber_text _ (fun hzero => absurd hzero hbounded.holds_shortest.2)
      hbounded.inRange_shortest

end ModuleDeps.Decimal
