/-
The tokens of a JSON text.

A text is cut into brackets, commas, colons, literals, numbers and strings; blanks between them are
dropped.  At the first place where no token can be read the list ends with a token that says why: a
text that merely stops too early is told apart from one that breaks the rules.

Main definitions:

* `ModuleDeps.Json.Token` — a token;
* `ModuleDeps.Json.scanString`, `ModuleDeps.Json.scanNumber` — a string and a number at the front of
  a text;
* `ModuleDeps.Json.tokenize` — the tokens of a text.
-/

import ModuleDeps.Fault
import ModuleDeps.Json.Magnitude

set_option relaxedAutoImplicit false
set_option autoImplicit false

namespace ModuleDeps.Json

/-- A token of a JSON text. -/
inductive Token where
  /-- An opening square bracket. -/
  | openArray
  /-- A closing square bracket. -/
  | closeArray
  /-- An opening brace. -/
  | openObject
  /-- A closing brace. -/
  | closeObject
  /-- A comma. -/
  | comma
  /-- A colon. -/
  | colon
  /-- The literal `null`. -/
  | null
  /-- A literal truth value. -/
  | bool (b : Bool)
  /-- A number. -/
  | number (literal : String)
  /-- A number that is too large for a double. -/
  | hugeNumber
  /-- A string. -/
  | string (s : String)
  /-- A string in which half of a pair of escapes stands alone. -/
  | halfPair
  /-- No token can be read here; `inString` says whether a quote stands here. -/
  | broken (inString : Bool) (flaw : JsonFlaw)
  deriving DecidableEq, Repr

/-! ### Strings -/

/-- The value of a hexadecimal digit. -/
def hexValue? (c : Char) : Option Nat :=
  if '0' ≤ c ∧ c ≤ '9' then some (c.toNat - '0'.toNat)
  else if 'a' ≤ c ∧ c ≤ 'f' then some (c.toNat - 'a'.toNat + 10)
  else if 'A' ≤ c ∧ c ≤ 'F' then some (c.toNat - 'A'.toNat + 10)
  else none

/-- The flaw of a text that does not start with four hexadecimal digits: it is too short if fewer
than four bytes are left. -/
def hexFlaw (cs : List Char) : JsonFlaw :=
  if (cs.take 4).foldl (fun n c => n + c.utf8Size) 0 < 4 then .truncated else .malformed

/-- The number that the four hexadecimal digits at the front of a text denote. -/
def hexUnit : List Char → Except JsonFlaw (Nat × List Char)
  | a :: b :: c :: d :: rest =>
    match hexValue? a, hexValue? b, hexValue? c, hexValue? d with
    | some a', some b', some c', some d' => .ok (((a' * 16 + b') * 16 + c') * 16 + d', rest)
    | _, _, _, _ => .error (hexFlaw (a :: b :: c :: d :: rest))
  | cs => .error (hexFlaw cs)

/-- Is the number the first half of a character beyond U+FFFF? -/
def isHighHalf (n : Nat) : Bool := 0xD800 ≤ n && n ≤ 0xDBFF

/-- Is the number the second half of a character beyond U+FFFF? -/
def isLowHalf (n : Nat) : Bool := 0xDC00 ≤ n && n ≤ 0xDFFF

/-- The second half of a character beyond U+FFFF, which must follow the first one. -/
def lowHalf : List Char → Except JsonFlaw (Nat × List Char)
  | [] => .error .truncated
  | ['\\'] => .error .truncated
  | '\\' :: 'u' :: rest =>
    match hexUnit rest with
    | .error flaw => .error flaw
    | .ok (n, rest') => if isLowHalf n then .ok (n, rest') else .error .malformed
  | _ => .error .malformed

/-- The character of a numbered escape: what follows a backslash and a `u`. -/
def numberedEscape (cs : List Char) : Except JsonFlaw (Char × List Char) :=
  match hexUnit cs with
  | .error flaw => .error flaw
  | .ok (high, rest) =>
    if isLowHalf high then .error .malformed
    else if isHighHalf high then
      match lowHalf rest with
      | .error flaw => .error flaw
      | .ok (low, rest') =>
        .ok (Char.ofNat ((high - 0xD800) * 0x400 + (low - 0xDC00) + 0x10000), rest')
    else .ok (Char.ofNat high, rest)

/-- The character of an escape: what follows a backslash. -/
def escape : List Char → Except JsonFlaw (Char × List Char)
  | [] => .error .truncated
  | '"' :: rest => .ok ('"', rest)
  | '\\' :: rest => .ok ('\\', rest)
  | '/' :: rest => .ok ('/', rest)
  | 'b' :: rest => .ok (Char.ofNat 0x8, rest)
  | 'f' :: rest => .ok (Char.ofNat 0xC, rest)
  | 'n' :: rest => .ok ('\n', rest)
  | 'r' :: rest => .ok ('\r', rest)
  | 't' :: rest => .ok ('\t', rest)
  | 'u' :: rest => numberedEscape rest
  | _ => .error .malformed

theorem length_of_hexUnit {cs rest : List Char} {n : Nat} (h : hexUnit cs = .ok (n, rest)) :
    rest.length < cs.length := by
  unfold hexUnit at h
  split at h
  · split at h <;> simp_all
    omega
  · simp at h

theorem length_of_lowHalf {cs rest : List Char} {n : Nat} (h : lowHalf cs = .ok (n, rest)) :
    rest.length < cs.length := by
  unfold lowHalf at h
  split at h <;> try simp at h
  split at h
  · simp at h
  · next hu =>
    have := length_of_hexUnit hu
    split at h <;> simp_all
    omega

theorem length_of_numberedEscape {cs rest : List Char} {c : Char}
    (h : numberedEscape cs = .ok (c, rest)) : rest.length < cs.length := by
  unfold numberedEscape at h
  split at h
  · simp at h
  · next hu =>
    have hl := length_of_hexUnit hu
    split at h
    · simp at h
    · split at h
      · split at h
        · simp at h
        · next hw =>
          have := length_of_lowHalf hw
          simp_all
          omega
      · simp_all

theorem length_of_escape {cs rest : List Char} {c : Char} (h : escape cs = .ok (c, rest)) :
    rest.length < cs.length := by
  unfold escape at h
  split at h <;> try simp_all
  next hu => have := length_of_numberedEscape h; omega

/-- The string at the front of a text, behind its opening quote, and the text behind its closing
quote.  `read` holds the characters read so far, the last one first. -/
def scanString (read : List Char) (cs : List Char) : Except JsonFlaw (String × List Char) :=
  match cs with
  | [] => .error .truncated
  | c :: rest =>
    if c = '"' then .ok (String.ofList read.reverse, rest)
    else if c = '\\' then
      match h : escape rest with
      | .error flaw => .error flaw
      | .ok (d, rest') =>
        have := length_of_escape h
        scanString (d :: read) rest'
    else if c.toNat < 0x20 then .error .malformed
    else scanString (c :: read) rest
termination_by cs.length

theorem length_of_scanString {read cs rest : List Char} {s : String}
    (h : scanString read cs = .ok (s, rest)) : rest.length < cs.length := by
  fun_induction scanString read cs with
  | case1 => simp at h
  | case2 => simp_all
  | case3 => simp at h
  | case4 _ _ _ _ _ _ hl ih => have := ih h; simp; omega
  | case5 => simp at h
  | case6 _ _ _ _ _ _ ih => have := ih h; simp; omega

/-- The text behind the closing quote of a string in which the escapes with a number need only have
their digits. -/
def skipString (cs : List Char) : Option (List Char) :=
  match cs with
  | '"' :: rest => some rest
  | '\\' :: 'u' :: a :: b :: c :: d :: rest =>
    if [a, b, c, d].all fun x => (hexValue? x).isSome then skipString rest else none
  | '\\' :: c :: rest =>
    if ['"', '\\', '/', 'b', 'f', 'n', 'r', 't'].contains c then skipString rest else none
  | c :: rest => if c = '\\' ∨ c.toNat < 0x20 then none else skipString rest
  | [] => none

theorem length_of_skipString {cs rest : List Char} (h : skipString cs = some rest) :
    rest.length < cs.length := by
  fun_induction skipString cs with
  | case1 => cases h; exact Nat.lt_succ_self _
  | case2 _ _ _ _ _ _ ih => have := ih h; simp only [List.length_cons]; omega
  | case3 => cases h
  | case4 _ _ _ _ ih => have := ih h; simp only [List.length_cons]; omega
  | case5 => cases h
  | case6 => cases h
  | case7 _ _ _ _ _ _ ih => have := ih h; simp only [List.length_cons]; omega
  | case8 => cases h

/-! ### Numbers -/

/-- A run of digits at the front of a text, which must not be empty. -/
def scanDigits (cs : List Char) : Except JsonFlaw (List Char × List Char) :=
  match cs.takeWhile Char.isDigit with
  | [] => .error (if cs.isEmpty then .truncated else .malformed)
  | digits => .ok (digits, cs.dropWhile Char.isDigit)

/-- The part of a number before its point: a zero stands alone. -/
def scanWhole (cs : List Char) : Except JsonFlaw (List Char × List Char) :=
  match scanDigits cs with
  | .error flaw => .error flaw
  | .ok ('0' :: _ :: _, _) => .error .malformed
  | .ok found => .ok found

/-- The fraction of a number, point included; it may be missing. -/
def scanFraction : List Char → Except JsonFlaw (List Char × List Char)
  | '.' :: rest => (scanDigits rest).map fun (digits, rest') => ('.' :: digits, rest')
  | cs => .ok ([], cs)

/-- The sign of an exponent; it may be missing. -/
def scanSign : List Char → List Char × List Char
  | '+' :: rest => (['+'], rest)
  | '-' :: rest => (['-'], rest)
  | cs => ([], cs)

/-- The exponent of a number, its mark included; it may be missing. -/
def scanExponent : List Char → Except JsonFlaw (List Char × List Char)
  | c :: rest =>
    if c = 'e' ∨ c = 'E' then
      (scanDigits (scanSign rest).2).map fun (digits, rest') =>
        (c :: ((scanSign rest).1 ++ digits), rest')
    else .ok ([], c :: rest)
  | [] => .ok ([], [])

/-- The exponent that the text of an exponent denotes. -/
def exponentValue : List Char → Int
  | _ :: '-' :: digits => -(ofDigits digits : Int)
  | _ :: '+' :: digits => ofDigits digits
  | _ :: digits => ofDigits digits
  | [] => 0

/-- Is the number with these digits before and behind its point and this exponent a double? -/
def isFinite (whole fraction : List Char) (exponent : Int) : Bool :=
  let m := Magnitude.ofDigits whole fraction
  Magnitude.isFinite ⟨m.word, m.scale + exponent⟩

/-- The minus sign of a number; it may be missing. -/
def scanMinus : List Char → List Char × List Char
  | '-' :: rest => (['-'], rest)
  | cs => ([], cs)

/-- The number at the front of a text and the text behind it. -/
def scanNumber (cs : List Char) : Except JsonFlaw (Token × List Char) :=
  match scanWhole (scanMinus cs).2 with
  | .error flaw => .error flaw
  | .ok (whole, rest) =>
    match scanFraction rest with
    | .error flaw => .error flaw
    | .ok (fraction, rest') =>
      match scanExponent rest' with
      | .error flaw => .error flaw
      | .ok (exponent, rest'') =>
        if isFinite whole (fraction.drop 1) (exponentValue exponent) then
          .ok (.number (String.ofList ((scanMinus cs).1 ++ whole ++ fraction ++ exponent)), rest'')
        else .ok (.hugeNumber, rest'')

theorem length_of_scanDigits {cs digits rest : List Char}
    (h : scanDigits cs = .ok (digits, rest)) : rest.length < cs.length := by
  unfold scanDigits at h
  split at h
  · simp at h
  · next hne =>
    have hs := congrArg List.length (List.takeWhile_append_dropWhile (p := Char.isDigit) (l := cs))
    rw [List.length_append] at hs
    have hpos := List.length_pos_iff.2 hne
    simp only [Except.ok.injEq, Prod.mk.injEq] at h
    rw [← h.2]
    omega

theorem length_of_scanWhole {cs digits rest : List Char}
    (h : scanWhole cs = .ok (digits, rest)) : rest.length < cs.length := by
  unfold scanWhole at h
  split at h
  · simp at h
  · simp at h
  · next hd => exact length_of_scanDigits (h ▸ hd)

theorem length_of_scanFraction {cs digits rest : List Char}
    (h : scanFraction cs = .ok (digits, rest)) : rest.length ≤ cs.length := by
  unfold scanFraction at h
  split at h
  · next tail =>
    cases hd : scanDigits tail with
    | error flaw => simp [hd, Except.map] at h
    | ok found =>
        have := @length_of_scanDigits _ found.1 found.2 hd
        simp_all [Except.map]
        omega
  · simp_all

theorem length_scanSign_le (cs : List Char) : (scanSign cs).2.length ≤ cs.length := by
  unfold scanSign
  split <;> simp

theorem length_of_scanExponent {cs digits rest : List Char}
    (h : scanExponent cs = .ok (digits, rest)) : rest.length ≤ cs.length := by
  unfold scanExponent at h
  split at h
  · next c tail =>
    split at h
    · cases hd : scanDigits (scanSign tail).2 with
      | error flaw => simp [hd, Except.map] at h
      | ok found =>
          have h1 := @length_of_scanDigits _ found.1 found.2 hd
          have h2 := length_scanSign_le tail
          simp_all [Except.map]
          omega
    · simp_all
  · simp_all

theorem length_scanMinus_le (cs : List Char) : (scanMinus cs).2.length ≤ cs.length := by
  unfold scanMinus
  split <;> simp

theorem length_of_scanNumber {cs rest : List Char} {token : Token}
    (h : scanNumber cs = .ok (token, rest)) : rest.length < cs.length := by
  have hm := length_scanMinus_le cs
  unfold scanNumber at h
  split at h
  · simp at h
  · next hw =>
    have h1 := length_of_scanWhole hw
    split at h
    · simp at h
    · next hf =>
      have h2 := length_of_scanFraction hf
      split at h
      · simp at h
      · next he =>
        have h3 := length_of_scanExponent he
        split at h
        all_goals
          simp only [Except.ok.injEq, Prod.mk.injEq] at h
          obtain ⟨-, rfl⟩ := h
          omega

/-! ### Literals -/

/-- A literal whose name goes on with the given characters, and the text behind it. -/
def scanName (token : Token) : List Char → List Char → Except JsonFlaw (Token × List Char)
  | [], cs => .ok (token, cs)
  | _ :: _, [] => .error .truncated
  | n :: name, c :: cs => if c = n then scanName token name cs else .error .malformed

theorem length_of_scanName {token found : Token} {name cs rest : List Char}
    (h : scanName token name cs = .ok (found, rest)) : rest.length ≤ cs.length := by
  induction name generalizing cs with
  | nil => simp_all [scanName]
  | cons n name ih =>
      cases cs with
      | nil => simp [scanName] at h
      | cons c cs =>
          rw [scanName] at h
          split at h
          · have := ih h; simp; omega
          · simp at h

/-! ### Tokens -/

/-- Is the character a blank of JSON? -/
def isSpace (c : Char) : Bool :=
  c == ' ' || c == '\t' || c == '\n' || c == '\r'

/-- The string behind an opening quote as a token. -/
def stringToken (rest : List Char) : Except JsonFlaw (Token × List Char) :=
  match scanString [] rest with
  | .ok (s, rest') => .ok (.string s, rest')
  | .error flaw =>
    match skipString rest with
    | some rest' => .ok (.halfPair, rest')
    | none => .error flaw

/-- The token at the front of a text that starts with `c`, and the text behind it. -/
def scanToken (c : Char) (rest : List Char) : Except JsonFlaw (Token × List Char) :=
  match c with
  | '[' => .ok (.openArray, rest)
  | ']' => .ok (.closeArray, rest)
  | '\x7b' => .ok (.openObject, rest)
  | '\x7d' => .ok (.closeObject, rest)
  | ',' => .ok (.comma, rest)
  | ':' => .ok (.colon, rest)
  | 'n' => scanName .null ['u', 'l', 'l'] rest
  | 't' => scanName (.bool true) ['r', 'u', 'e'] rest
  | 'f' => scanName (.bool false) ['a', 'l', 's', 'e'] rest
  | '"' => stringToken rest
  | _ => if c == '-' || c.isDigit then scanNumber (c :: rest) else .error .malformed

theorem length_of_stringToken {rest rest' : List Char} {token : Token}
    (h : stringToken rest = .ok (token, rest')) : rest'.length < rest.length := by
  unfold stringToken at h
  split at h
  · next hs =>
      cases h
      exact length_of_scanString hs
  · split at h
    · next hs =>
        cases h
        exact length_of_skipString hs
    · cases h

theorem length_of_scanToken {c : Char} {rest rest' : List Char} {token : Token}
    (h : scanToken c rest = .ok (token, rest')) : rest'.length ≤ rest.length := by
  unfold scanToken at h
  split at h
  case h_7 | h_8 | h_9 => exact length_of_scanName h
  case h_10 => exact Nat.le_of_lt (length_of_stringToken h)
  case h_11 =>
    split at h
    · exact Nat.le_of_lt_succ (length_of_scanNumber h)
    · simp at h
  all_goals simp_all

/-- The tokens of a text behind those already read, of which the last one comes first. -/
def tokensFrom (read : List Token) (cs : List Char) : List Token :=
  match cs with
  | [] => read.reverse
  | c :: rest =>
    if isSpace c then tokensFrom read rest
    else match h : scanToken c rest with
      | .error flaw => (.broken (c == '"') flaw :: read).reverse
      | .ok (token, rest') =>
        have := length_of_scanToken h
        tokensFrom (token :: read) rest'
termination_by cs.length

/-- The tokens of a text; the last one tells where reading stopped, if it did. -/
def tokenize (cs : List Char) : List Token :=
  tokensFrom [] cs

end ModuleDeps.Json
