/-
Tokens are taken as they are written.

A text is cut into tokens from the front.  What is written for a token is taken as this token
whatever follows it: a bracket, a comma, a colon and a literal end by themselves, and a string ends
with its quote.  A number is the exception.  It ends where no character can carry it on, so no two
numbers may stand side by side.  Strings are followed character by character, and numbers part by
part: sign, digits before the point, fraction and exponent.

Main definitions:

* `ModuleDeps.Json.Apart` — no two numbers stand side by side.

Main results:

* `ModuleDeps.Json.scanString_of_charsText` — a string is taken as it is written, with every escape;
* `ModuleDeps.Json.scanNumber_of_inRange` — so is a number, if it is not too large;
* `ModuleDeps.Json.tokensFrom_of_spells` — **a text is cut into the tokens that it spells**.
-/

import Mathlib.Data.List.Chain
import ModuleDeps.Proofs.JsonTexts

set_option relaxedAutoImplicit false
set_option autoImplicit false

namespace ModuleDeps.Json

/-! ### Strings -/

theorem hexUnit_of_hexText {n : Nat} {digits : List Char} (h : HexText n digits)
    (rest : List Char) : hexUnit (digits ++ rest) = .ok (n, rest) := by
  cases h with
  | digits ha hb hc hd => simp only [List.cons_append, List.nil_append, hexUnit, ha, hb, hc, hd]

/-- The number of a character is no half of a pair. -/
theorem isHalf_toNat (c : Char) : isLowHalf c.toNat = false ∧ isHighHalf c.toNat = false := by
  have hvalid : c.toNat < 0xD800 ∨ 0xDFFF < c.toNat ∧ c.toNat < 0x110000 := c.valid
  simp only [isLowHalf, isHighHalf, Bool.and_eq_false_iff, decide_eq_false_iff_not]
  omega

theorem escape_of_short {letter c : Char} (h : (letter, c) ∈ shortEscapes) (rest : List Char) :
    escape (letter :: rest) = .ok (c, rest) := by
  simp only [shortEscapes, List.mem_cons, Prod.mk.injEq, List.not_mem_nil, or_false] at h
  rcases h with ⟨rfl, rfl⟩ | ⟨rfl, rfl⟩ | ⟨rfl, rfl⟩ | ⟨rfl, rfl⟩ | ⟨rfl, rfl⟩ | ⟨rfl, rfl⟩ |
    ⟨rfl, rfl⟩ | ⟨rfl, rfl⟩ <;> rfl

theorem numberedEscape_of_unit {c : Char} {digits : List Char} (h : HexText c.toNat digits)
    (rest : List Char) : numberedEscape (digits ++ rest) = .ok (c, rest) := by
  obtain ⟨hlow, hhigh⟩ := isHalf_toNat c
  simp [numberedEscape, hexUnit_of_hexText h, hlow, hhigh]

theorem numberedEscape_of_pair {c : Char} {high low : List Char} (hc : 0x10000 ≤ c.toNat)
    (hhigh : HexText (0xD800 + (c.toNat - 0x10000) / 0x400) high)
    (hlow : HexText (0xDC00 + (c.toNat - 0x10000) % 0x400) low) (rest : List Char) :
    numberedEscape (high ++ '\\' :: 'u' :: (low ++ rest)) = .ok (c, rest) := by
  have hmax : c.toNat < 0x110000 := by
    have hvalid : c.toNat < 0xD800 ∨ 0xDFFF < c.toNat ∧ c.toNat < 0x110000 := c.valid
    omega
  have hnotLow : isLowHalf (0xD800 + (c.toNat - 0x10000) / 0x400) = false := by
    simp only [isLowHalf, Bool.and_eq_false_iff, decide_eq_false_iff_not]
    omega
  have hisHigh : isHighHalf (0xD800 + (c.toNat - 0x10000) / 0x400) = true := by
    simp only [isHighHalf, Bool.and_eq_true, decide_eq_true_eq]
    omega
  have hisLow : isLowHalf (0xDC00 + (c.toNat - 0x10000) % 0x400) = true := by
    simp only [isLowHalf, Bool.and_eq_true, decide_eq_true_eq]
    omega
  have hlowHalf : lowHalf ('\\' :: 'u' :: (low ++ rest)) =
      .ok (0xDC00 + (c.toNat - 0x10000) % 0x400, rest) := by
    simp only [lowHalf, hexUnit_of_hexText hlow, hisLow, if_true]
  have hcode : (0xD800 + (c.toNat - 0x10000) / 0x400 - 0xD800) * 0x400 +
      (0xDC00 + (c.toNat - 0x10000) % 0x400 - 0xDC00) + 0x10000 = c.toNat := by
    omega
  rw [numberedEscape, hexUnit_of_hexText hhigh]
  simp only [hnotLow, hisHigh, hlowHalf, hcode, Char.ofNat_toNat, if_true, Bool.false_eq_true,
    if_false]

theorem scanString_of_escape {rest rest' : List Char} {c : Char} (h : escape rest = .ok (c, rest'))
    (read : List Char) : scanString read ('\\' :: rest) = scanString (c :: read) rest' := by
  rw [scanString, if_neg (by decide), if_pos rfl]
  split
  · next flaw hflaw =>
      rw [h] at hflaw
      cases hflaw
  · next d rest'' hd =>
      rw [h] at hd
      cases hd
      rfl

/-- A character inside quotes is taken as it is written. -/
theorem scanString_of_charText {c : Char} {text : List Char} (h : CharText c text)
    (read rest : List Char) : scanString read (text ++ rest) = scanString (c :: read) rest := by
  cases h with
  | plain hquote hslash hcontrol =>
      rw [List.cons_append, List.nil_append, scanString, if_neg hquote, if_neg hslash,
        if_neg (by omega)]
  | short h => exact scanString_of_escape (escape_of_short h rest) read
  | @unit digits h =>
      have hescape : escape ('u' :: (digits ++ rest)) = .ok (c, rest) :=
        numberedEscape_of_unit h rest
      exact scanString_of_escape hescape read
  | @pair high low hc hhigh hlow =>
      have hescape : escape ('u' :: (high ++ '\\' :: 'u' :: (low ++ rest))) = .ok (c, rest) :=
        numberedEscape_of_pair hc hhigh hlow rest
      rw [List.cons_append, List.cons_append, List.append_assoc]
      exact scanString_of_escape hescape read

/-- Characters inside quotes are taken as they are written, up to the closing quote. -/
theorem scanString_of_charsText {cs text : List Char} (h : CharsText cs text)
    (read rest : List Char) :
    scanString read (text ++ '"' :: rest) = .ok (String.ofList (read.reverse ++ cs), rest) := by
  induction h generalizing read with
  | nil => rw [List.nil_append, scanString, if_pos rfl, List.append_nil]
  | cons h _ ih =>
      rw [List.append_assoc, scanString_of_charText h, ih, List.reverse_cons, List.append_assoc]
      rfl

/-! ### Numbers -/

/-- No character with the property stands at the front. -/
def Stops (p : Char → Bool) (cs : List Char) : Prop :=
  ∀ c ∈ cs.head?, p c = false

/-- The character can carry on a number. -/
def continuesNumber (c : Char) : Bool :=
  c.isDigit || c == '.' || c == 'e' || c == 'E'

theorem stops_cons {p : Char → Bool} {c : Char} (h : p c = false) (cs : List Char) :
    Stops p (c :: cs) := by
  intro d hd
  cases hd
  exact h

theorem Stops.of_imp {p q : Char → Bool} {cs : List Char} (h : Stops p cs)
    (himp : ∀ c, q c = true → p c = true) : Stops q cs := by
  intro c hc
  rw [← Bool.not_eq_true]
  intro hq
  have hp := h c hc
  rw [himp c hq] at hp
  cases hp

theorem Stops.isDigit {cs : List Char} (h : Stops continuesNumber cs) : Stops Char.isDigit cs :=
  h.of_imp fun c hc => by simp [continuesNumber, hc]

theorem isDigit_cases {digits : List Char} (h : IsDigits digits) :
    ∃ c cs, digits = c :: cs ∧ c.isDigit = true := by
  obtain ⟨hne, hall⟩ := h
  obtain ⟨c, cs, rfl⟩ := List.exists_cons_of_ne_nil hne
  exact ⟨c, cs, rfl, hall c List.mem_cons_self⟩

theorem scanDigits_append {digits rest : List Char} (h : IsDigits digits)
    (hrest : Stops Char.isDigit rest) : scanDigits (digits ++ rest) = .ok (digits, rest) := by
  have hstop : rest.takeWhile Char.isDigit = [] ∧ rest.dropWhile Char.isDigit = rest := by
    cases rest with
    | nil => exact ⟨rfl, rfl⟩
    | cons c rest =>
        have hc : c.isDigit = false := hrest c rfl
        simp [hc]
  have htake : (digits ++ rest).takeWhile Char.isDigit = digits := by
    rw [List.takeWhile_append_of_pos h.2, hstop.1, List.append_nil]
  have hdrop : (digits ++ rest).dropWhile Char.isDigit = rest := by
    rw [List.dropWhile_append_of_pos h.2, hstop.2]
  obtain ⟨c, cs, rfl, -⟩ := isDigit_cases h
  rw [scanDigits, htake, hdrop]

namespace Numeral

theorem scanMinus_append (n : Numeral) (rest : List Char) :
    scanMinus (n.sign ++ (n.whole ++ rest)) = (n.sign, n.whole ++ rest) := by
  rcases n.sign_ok with hsign | hsign
  · obtain ⟨c, cs, hwhole, hc⟩ := isDigit_cases n.whole_ok
    rw [hsign, hwhole, List.nil_append, List.cons_append, scanMinus]
    intro tail htail
    rw [(List.cons.inj htail).1] at hc
    exact absurd hc (by decide)
  · rw [hsign]
    rfl

theorem scanWhole_append (n : Numeral) {rest : List Char} (h : Stops Char.isDigit rest) :
    scanWhole (n.whole ++ rest) = .ok (n.whole, rest) := by
  rw [scanWhole, scanDigits_append n.whole_ok h]
  split
  · next hflaw => cases hflaw
  · next hlong =>
      simp only [Except.ok.injEq, Prod.mk.injEq] at hlong
      cases n.zero_ok _ hlong.1
  · next found hfound => exact hfound.symm

/-- A fraction is taken if what follows neither is a digit nor begins one. -/
theorem scanFraction_append (n : Numeral) {rest : List Char}
    (h : Stops (fun c => c.isDigit || c == '.') rest) :
    scanFraction (n.fraction ++ rest) = .ok (n.fraction, rest) := by
  rcases n.fraction_ok with hfraction | ⟨digits, hdigits, hfraction⟩
  · rw [hfraction, List.nil_append, scanFraction]
    rintro tail rfl
    exact absurd (h '.' rfl) (by decide)
  · have hrest : Stops Char.isDigit rest := h.of_imp fun c hc => by simp [hc]
    rw [hfraction, List.cons_append, scanFraction, scanDigits_append hdigits hrest]
    rfl

theorem scanSign_append {sign digits rest : List Char}
    (hsign : sign = [] ∨ sign = ['+'] ∨ sign = ['-']) (h : IsDigits digits) :
    scanSign (sign ++ digits ++ rest) = (sign, digits ++ rest) := by
  rcases hsign with rfl | rfl | rfl
  · obtain ⟨c, cs, rfl, hc⟩ := isDigit_cases h
    rw [List.nil_append, List.cons_append, scanSign]
    · intro tail htail
      rw [(List.cons.inj htail).1] at hc
      exact absurd hc (by decide)
    · intro tail htail
      rw [(List.cons.inj htail).1] at hc
      exact absurd hc (by decide)
  · rfl
  · rfl

theorem scanExponent_append (n : Numeral) {rest : List Char} (h : Stops continuesNumber rest) :
    scanExponent (n.exponent ++ rest) = .ok (n.exponent, rest) := by
  rcases n.exponent_ok with hexp | ⟨mark, sign, digits, hmark, hsign, hdigits, hexp⟩
  · rw [hexp, List.nil_append]
    cases rest with
    | nil => rfl
    | cons c rest =>
        have hc : ¬(c = 'e' ∨ c = 'E') := by
          rintro (rfl | rfl)
          · exact absurd (h 'e' rfl) (by decide)
          · exact absurd (h 'E' rfl) (by decide)
        rw [scanExponent, if_neg hc]
  · rw [hexp, List.cons_append, scanExponent, if_pos hmark, scanSign_append hsign hdigits,
      scanDigits_append hdigits h.isDigit]
    rfl

/-- The exponent and what follows it carry on neither digits nor a fraction. -/
theorem stops_exponent_append (n : Numeral) {rest : List Char} (h : Stops continuesNumber rest) :
    Stops (fun c => c.isDigit || c == '.') (n.exponent ++ rest) := by
  rcases n.exponent_ok with hexp | ⟨mark, sign, digits, hmark, -, -, hexp⟩
  · rw [hexp, List.nil_append]
    refine h.of_imp fun c hc => ?_
    simp only [continuesNumber, hc, Bool.true_or]
  · rw [hexp, List.cons_append]
    rcases hmark with rfl | rfl
    · exact stops_cons (by decide) _
    · exact stops_cons (by decide) _

theorem stops_fraction_append (n : Numeral) {rest : List Char} (h : Stops continuesNumber rest) :
    Stops Char.isDigit (n.fraction ++ (n.exponent ++ rest)) := by
  rcases n.fraction_ok with hfraction | ⟨digits, -, hfraction⟩
  · rw [hfraction, List.nil_append]
    exact (n.stops_exponent_append h).of_imp fun c hc => by simp [hc]
  · rw [hfraction, List.cons_append]
    exact stops_cons (by decide) _

end Numeral

/-- A number is taken as it is written, if it is not too large and does not run on. -/
theorem scanNumber_of_inRange {n : Numeral} (hn : n.InRange) {rest : List Char}
    (h : Stops continuesNumber rest) :
    scanNumber (n.chars ++ rest) = .ok (.number n.literal, rest) := by
  have hchars : n.chars ++ rest =
      n.sign ++ (n.whole ++ (n.fraction ++ (n.exponent ++ rest))) := by
    simp only [Numeral.chars, List.append_assoc]
  have hliteral : n.sign ++ n.whole ++ n.fraction ++ n.exponent = n.chars := by
    simp only [Numeral.chars, List.append_assoc]
  simp only [scanNumber, hchars, n.scanMinus_append,
    n.scanWhole_append (n.stops_fraction_append h),
    n.scanFraction_append (n.stops_exponent_append h), n.scanExponent_append h, hliteral]
  rw [Numeral.InRange] at hn
  rw [if_pos hn]
  rfl

theorem Numeral.exists_chars_eq (n : Numeral) :
    ∃ c cs, n.chars = c :: cs ∧ (c = '-' ∨ c.isDigit = true) := by
  rcases n.sign_ok with hsign | hsign
  · obtain ⟨c, cs, hwhole, hc⟩ := isDigit_cases n.whole_ok
    exact ⟨c, _, by rw [chars, hsign, hwhole]; rfl, Or.inr hc⟩
  · exact ⟨'-', _, by rw [chars, hsign]; rfl, Or.inl rfl⟩

/-! ### Tokens -/

theorem scanToken_of_number {c : Char} (h : c = '-' ∨ c.isDigit = true) (rest : List Char) :
    isSpace c = false ∧ scanToken c rest = scanNumber (c :: rest) := by
  have hne : ∀ d : Char, d ≠ '-' → d.isDigit = false → c ≠ d := by
    rintro d hminus hdigit rfl
    rcases h with h | h
    · exact hminus h
    · rw [hdigit] at h
      cases h
  have hnumber : (c == '-' || c.isDigit) = true := by
    simpa using h
  constructor
  · have h₁ : c ≠ ' ' := hne _ (by decide) (by decide)
    have h₂ : c ≠ '\t' := hne _ (by decide) (by decide)
    have h₃ : c ≠ '\n' := hne _ (by decide) (by decide)
    have h₄ : c ≠ '\r' := hne _ (by decide) (by decide)
    simp [isSpace, h₁, h₂, h₃, h₄]
  · rw [scanToken, if_pos hnumber]
    all_goals exact hne _ (by decide) (by decide)

theorem stringToken_of_charsText {s : String} {text : List Char} (h : CharsText s.toList text)
    (rest : List Char) : stringToken (text ++ '"' :: rest) = .ok (.string s, rest) := by
  rw [stringToken, scanString_of_charsText h]
  simp

/-- Is the token a number? -/
def Token.isNumber : Token → Bool
  | .number _ => true
  | _ => false

/-- What is written for a token is taken as this token; a number must not be too large, and must not
run on. -/
theorem scanToken_of_tokenText {token : Token} {text rest : List Char} (h : TokenText token text)
    (hlarge : ∀ literal, token = .number literal → IsReadableNumber literal)
    (hrest : token.isNumber = true → Stops continuesNumber rest) :
    ∃ c cs, text = c :: cs ∧ isSpace c = false ∧ scanToken c (cs ++ rest) = .ok (token, rest) := by
  cases h with
  | number h =>
      obtain ⟨n, hliteral, hn⟩ := hlarge _ rfl
      obtain ⟨c, cs, hchars, hc⟩ := n.exists_chars_eq
      obtain ⟨hspace, hscan⟩ := scanToken_of_number hc (cs ++ rest)
      refine ⟨c, cs, ?_, hspace, ?_⟩
      · rw [← hliteral, Numeral.literal, String.toList_ofList, hchars]
      · rw [hscan, ← List.cons_append, ← hchars, scanNumber_of_inRange hn (hrest rfl), hliteral]
  | string h =>
      refine ⟨_, _, rfl, by decide, ?_⟩
      rw [List.append_assoc]
      exact stringToken_of_charsText h rest
  | _ => exact ⟨_, _, rfl, by decide, rfl⟩

theorem tokensFrom_blanks_append {blanks : List Char} (h : IsBlanks blanks) (read : List Token)
    (rest : List Char) : tokensFrom read (blanks ++ rest) = tokensFrom read rest := by
  induction blanks with
  | nil => rfl
  | cons c blanks ih =>
      rw [List.cons_append, tokensFrom, if_pos (h c List.mem_cons_self),
        ih fun d hd => h d (List.mem_cons_of_mem _ hd)]

theorem tokensFrom_of_scanToken {c : Char} {cs rest : List Char} {token : Token}
    (hc : isSpace c = false) (h : scanToken c cs = .ok (token, rest)) (read : List Token) :
    tokensFrom read (c :: cs) = tokensFrom (token :: read) rest := by
  rw [tokensFrom, hc, if_neg (by decide)]
  split
  · next flaw hflaw =>
      rw [h] at hflaw
      cases hflaw
  · next token' rest' htoken =>
      rw [h] at htoken
      cases htoken
      rfl

/-- No two numbers stand side by side. -/
def Apart (tokens : List Token) : Prop :=
  tokens.IsChain fun a b => a.isNumber = true → b.isNumber = false

/-- What is spelled behind a number does not carry it on. -/
theorem stops_of_spells {tokens : List Token} {text : List Char} (h : Spells tokens text)
    (hfirst : ∀ token ∈ tokens.head?, token.isNumber = false) : Stops continuesNumber text := by
  have hblank : ∀ c, isSpace c = true → continuesNumber c = false := by
    intro c hc
    simp only [isSpace, Bool.or_eq_true, beq_iff_eq] at hc
    rcases hc with ((rfl | rfl) | rfl) | rfl <;> decide
  cases h with
  | nil hb =>
      intro c hc
      exact hblank c (hb c (List.mem_of_mem_head? hc))
  | @cons blanks text rest token tokens hb ht hr =>
      cases blanks with
      | cons c blanks => exact stops_cons (hblank c (hb c List.mem_cons_self)) _
      | nil =>
          have htoken := hfirst token rfl
          cases ht with
          | number h => cases htoken
          | _ => exact stops_cons (by decide) _

/-- A text is cut into the tokens that it spells. -/
theorem tokensFrom_of_spells {tokens : List Token} {text : List Char} (h : Spells tokens text)
    (hlarge : ∀ literal, .number literal ∈ tokens → IsReadableNumber literal)
    (hapart : Apart tokens) (read : List Token) :
    tokensFrom read text = read.reverse ++ tokens := by
  induction h generalizing read with
  | nil hb =>
      have hblanks := tokensFrom_blanks_append hb read []
      rw [List.append_nil] at hblanks
      rw [hblanks, tokensFrom, List.append_nil]
  | @cons blanks text rest token tokens hb ht hr ih =>
      rw [Apart, List.isChain_cons] at hapart
      have hrest : token.isNumber = true → Stops continuesNumber rest := fun hnumber =>
        stops_of_spells hr fun next hnext => hapart.1 next hnext hnumber
      have hliteral : ∀ literal, token = .number literal → IsReadableNumber literal :=
        fun literal heq => hlarge literal (heq ▸ List.mem_cons_self)
      obtain ⟨c, cs, rfl, hspace, hscan⟩ := scanToken_of_tokenText ht hliteral hrest
      rw [tokensFrom_blanks_append hb, List.cons_append, tokensFrom_of_scanToken hspace hscan,
        ih (fun literal hmem => hlarge literal (List.mem_cons_of_mem _ hmem)) hapart.2]
      simp

end ModuleDeps.Json
