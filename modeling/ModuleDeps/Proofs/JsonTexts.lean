/-
The texts of a JSON value.

A value has many texts: blanks may stand between any two tokens, a character of a string may stand
for itself or be escaped, and an escape may have capital or small digits.  Here they are described
by the grammar of JSON, apart from any reader or writer.  A value gives a list of tokens; a token is
written in one of several ways; and a text spells tokens if it is what is written for them, with
blanks before, between and behind.

A reader takes a value only within two limits of its own: brackets must not be nested too deeply,
and a number must pass a test for those that are too large for a double.  Since the test is made
with rounded factors, some numbers fail it that are a little below the largest double.  These limits
are described here as well.  Both writers give a text of the value, the compact one without blanks
and the pretty one with line breaks.

Main definitions:

* `ModuleDeps.Json.Numeral` — the literal of a number in its four parts;
* `ModuleDeps.Json.CharText`, `ModuleDeps.Json.TokenText` — how a character and a token are written;
* `ModuleDeps.Json.tokens`, `ModuleDeps.Json.IsText` — the tokens of a value, and its texts;
* `ModuleDeps.Json.Fits` — a value is within the limits of reading.

Main results:

* `ModuleDeps.Json.charText_escapeChar` — what is written for a character inside quotes spells it;
* `ModuleDeps.Json.isText_toCompact`, `ModuleDeps.Json.isText_toPretty` — **both writers give a text
  of the value**.
-/

import ModuleDeps.Json.Reader
import ModuleDeps.Json.Writer

set_option relaxedAutoImplicit false
set_option autoImplicit false

namespace ModuleDeps.Json

/-! ### Numbers -/

/-- At least one digit, and nothing but digits. -/
def IsDigits (cs : List Char) : Prop :=
  cs ≠ [] ∧ ∀ c ∈ cs, c.isDigit = true

/-- The literal of a number, in its four parts. -/
structure Numeral where
  /-- A minus, or nothing. -/
  sign : List Char
  /-- The digits before the point. -/
  whole : List Char
  /-- The point with digits behind it, or nothing. -/
  fraction : List Char
  /-- The mark of an exponent with its sign, if any, and its digits, or nothing. -/
  exponent : List Char
  sign_ok : sign = [] ∨ sign = ['-']
  whole_ok : IsDigits whole
  /-- A zero at the front stands alone. -/
  zero_ok : ∀ rest, whole = '0' :: rest → rest = []
  fraction_ok : fraction = [] ∨ ∃ digits, IsDigits digits ∧ fraction = '.' :: digits
  exponent_ok : exponent = [] ∨ ∃ mark sign digits, (mark = 'e' ∨ mark = 'E') ∧
    (sign = [] ∨ sign = ['+'] ∨ sign = ['-']) ∧ IsDigits digits ∧
      exponent = mark :: (sign ++ digits)

namespace Numeral

/-- The characters of the literal. -/
def chars (n : Numeral) : List Char :=
  n.sign ++ (n.whole ++ (n.fraction ++ n.exponent))

/-- The literal. -/
def literal (n : Numeral) : String :=
  String.ofList n.chars

/-- The number passes the test for numbers that are too large: its digits, as far as they are
gathered, and the power of ten that remains have a product that is a double. -/
def InRange (n : Numeral) : Prop :=
  isFinite n.whole (n.fraction.drop 1) (exponentValue n.exponent) = true

end Numeral

/-- The literal is one of a number. -/
def IsNumber (literal : String) : Prop :=
  ∃ n : Numeral, n.literal = literal

/-- The literal is one of a number that passes the test. -/
def IsReadableNumber (literal : String) : Prop :=
  ∃ n : Numeral, n.literal = literal ∧ n.InRange

theorem IsReadableNumber.isNumber {literal : String} (h : IsReadableNumber literal) :
    IsNumber literal := by
  obtain ⟨n, hn, -⟩ := h
  exact ⟨n, hn⟩

/-! ### Strings -/

/-- Four hexadecimal digits denote a number. -/
inductive HexText : Nat → List Char → Prop
  | digits {a b c d : Char} {i j k l : Nat} (ha : hexValue? a = some i) (hb : hexValue? b = some j)
      (hc : hexValue? c = some k) (hd : hexValue? d = some l) :
      HexText (((i * 16 + j) * 16 + k) * 16 + l) [a, b, c, d]

/-- The letters of the short escapes with the characters that they stand for. -/
def shortEscapes : List (Char × Char) :=
  [('"', '"'), ('\\', '\\'), ('/', '/'), ('b', Char.ofNat 0x8), ('f', Char.ofNat 0xC), ('n', '\n'),
    ('r', '\r'), ('t', '\t')]

/-- How a character is written inside quotes. -/
inductive CharText : Char → List Char → Prop
  /-- It stands for itself. -/
  | plain {c : Char} (hquote : c ≠ '"') (hslash : c ≠ '\\') (hcontrol : 0x20 ≤ c.toNat) :
      CharText c [c]
  /-- It has a short escape. -/
  | short {c letter : Char} (h : (letter, c) ∈ shortEscapes) : CharText c ['\\', letter]
  /-- Its number has four hexadecimal digits. -/
  | unit {c : Char} {digits : List Char} (h : HexText c.toNat digits) :
      CharText c ('\\' :: 'u' :: digits)
  /-- It lies beyond U+FFFF, and its number is cut into halves. -/
  | pair {c : Char} {high low : List Char} (hc : 0x10000 ≤ c.toNat)
      (hhigh : HexText (0xD800 + (c.toNat - 0x10000) / 0x400) high)
      (hlow : HexText (0xDC00 + (c.toNat - 0x10000) % 0x400) low) :
      CharText c ('\\' :: 'u' :: (high ++ '\\' :: 'u' :: low))

/-- How characters are written inside quotes. -/
inductive CharsText : List Char → List Char → Prop
  | nil : CharsText [] []
  | cons {c : Char} {cs text rest : List Char} (h : CharText c text) (hrest : CharsText cs rest) :
      CharsText (c :: cs) (text ++ rest)

/-! ### Tokens -/

/-- How a token is written. -/
inductive TokenText : Token → List Char → Prop
  | openArray : TokenText .openArray ['[']
  | closeArray : TokenText .closeArray [']']
  | openObject : TokenText .openObject ['\x7b']
  | closeObject : TokenText .closeObject ['\x7d']
  | comma : TokenText .comma [',']
  | colon : TokenText .colon [':']
  | null : TokenText .null ['n', 'u', 'l', 'l']
  | yes : TokenText (.bool true) ['t', 'r', 'u', 'e']
  | no : TokenText (.bool false) ['f', 'a', 'l', 's', 'e']
  | number {literal : String} (h : IsNumber literal) : TokenText (.number literal) literal.toList
  | string {s : String} {text : List Char} (h : CharsText s.toList text) :
      TokenText (.string s) ('"' :: (text ++ ['"']))

/-- All characters are blanks. -/
def IsBlanks (cs : List Char) : Prop :=
  ∀ c ∈ cs, isSpace c = true

/-- A text spells tokens, with blanks before, between and behind them. -/
inductive Spells : List Token → List Char → Prop
  | nil {blanks : List Char} (h : IsBlanks blanks) : Spells [] blanks
  | cons {blanks text rest : List Char} {token : Token} {tokens : List Token}
      (hblanks : IsBlanks blanks) (htext : TokenText token text) (hrest : Spells tokens rest) :
      Spells (token :: tokens) (blanks ++ (text ++ rest))

theorem IsBlanks.append {as bs : List Char} (ha : IsBlanks as) (hb : IsBlanks bs) :
    IsBlanks (as ++ bs) := by
  intro c hc
  rcases List.mem_append.1 hc with hc | hc
  · exact ha c hc
  · exact hb c hc

namespace Spells

variable {tokens : List Token} {blanks text rest : List Char}

/-- Blanks may stand in front of a text. -/
theorem blanks_append (hblanks : IsBlanks blanks) (h : Spells tokens text) :
    Spells tokens (blanks ++ text) := by
  cases h with
  | nil h => exact .nil (hblanks.append h)
  | cons hb ht hr =>
      rw [← List.append_assoc]
      exact .cons (hblanks.append hb) ht hr

/-- Two texts one behind the other spell the tokens of both. -/
theorem append {others : List Token} (h : Spells tokens text) (hrest : Spells others rest) :
    Spells (tokens ++ others) (text ++ rest) := by
  induction h with
  | nil hb => exact hrest.blanks_append hb
  | cons hb ht _ ih =>
      rw [List.append_assoc, List.append_assoc]
      exact .cons hb ht ih

/-- A token in front of a text. -/
theorem token_append {token : Token} (ht : TokenText token text) (hrest : Spells tokens rest) :
    Spells (token :: tokens) (text ++ rest) :=
  .cons (fun _ hc => absurd hc List.not_mem_nil) ht hrest

/-- A token of one character in front of a text. -/
theorem token_cons {token : Token} {c : Char} (ht : TokenText token [c])
    (hrest : Spells tokens rest) : Spells (token :: tokens) (c :: rest) :=
  token_append ht hrest

/-- A token alone. -/
theorem token {token : Token} (ht : TokenText token text) : Spells [token] text := by
  have h := token_append ht (.nil fun _ hc => absurd hc List.not_mem_nil)
  rwa [List.append_nil] at h

/-- Texts with commas between them spell the tokens of all, with commas between them. -/
theorem intercalate {α : Type} {xs : List α} {part : α → List Token} {texts : α → List Char}
    (h : ∀ x ∈ xs, Spells (part x) (texts x)) :
    Spells ([.comma].intercalate (xs.map part)) (commas (xs.map texts)) := by
  induction xs with
  | nil => exact .nil fun _ hc => absurd hc List.not_mem_nil
  | cons x xs ih =>
      have hx : Spells (part x) (texts x) := h x List.mem_cons_self
      have hxs := ih fun y hy => h y (List.mem_cons_of_mem _ hy)
      cases xs with
      | nil => simpa [commas] using hx
      | cons y ys =>
          simp only [commas, List.map_cons] at hxs ⊢
          rw [List.intercalate_cons_cons, List.intercalate_cons_cons]
          exact (hx.append (token .comma)).append hxs

end Spells

/-! ### Values -/

mutual

/-- The tokens of a value. -/
def tokens : Json → List Token
  | .null => [.null]
  | .bool b => [.bool b]
  | .number literal => [.number literal]
  | .string s => [.string s]
  | .array items => .openArray :: ([.comma].intercalate (itemTokens items) ++ [.closeArray])
  | .object members =>
    .openObject :: ([.comma].intercalate (memberTokens members) ++ [.closeObject])

/-- The tokens of each item of an array. -/
def itemTokens : List Json → List (List Token)
  | [] => []
  | v :: items => tokens v :: itemTokens items

/-- The tokens of each member of an object. -/
def memberTokens : List (String × Json) → List (List Token)
  | [] => []
  | (name, v) :: members => (.string name :: .colon :: tokens v) :: memberTokens members

end

theorem itemTokens_eq_map (items : List Json) : itemTokens items = items.map tokens := by
  induction items with
  | nil => rw [itemTokens, List.map_nil]
  | cons v items ih => rw [itemTokens, ih, List.map_cons]

theorem memberTokens_eq_map (members : List (String × Json)) :
    memberTokens members = members.map fun m => .string m.1 :: .colon :: tokens m.2 := by
  induction members with
  | nil => rw [memberTokens, List.map_nil]
  | cons m members ih => rw [memberTokens, ih, List.map_cons]

theorem tokens_array (items : List Json) :
    tokens (.array items) =
      .openArray :: ([.comma].intercalate (items.map tokens) ++ [.closeArray]) := by
  rw [tokens, itemTokens_eq_map]

theorem tokens_object (members : List (String × Json)) :
    tokens (.object members) = .openObject ::
      ([.comma].intercalate (members.map fun m => .string m.1 :: .colon :: tokens m.2) ++
        [.closeObject]) := by
  rw [tokens, memberTokens_eq_map]

/-- **The texts of a value**: they spell its tokens. -/
def IsText (v : Json) (text : String) : Prop :=
  Spells (tokens v) text.toList

/-- A value is within the limits of reading: its brackets are nested at most so many levels deep,
and its numbers pass the test for those that are too large. -/
def Fits : Nat → Json → Prop
  | _, .null => True
  | _, .bool _ => True
  | _, .number literal => IsReadableNumber literal
  | _, .string _ => True
  | levels + 1, .array items => ∀ v ∈ items, Fits levels v
  | levels + 1, .object members => ∀ m ∈ members, Fits levels m.2
  | 0, .array _ => False
  | 0, .object _ => False

@[simp] theorem fits_null (levels : Nat) : Fits levels null := by
  simp [Fits]

@[simp] theorem fits_string (levels : Nat) (s : String) : Fits levels (string s) := by
  simp [Fits]

/-! ### Writing -/

theorem hexValue?_hexDigit : ∀ n < 16, hexValue? (hexDigit n) = some n := by
  decide

/-- What is written for a character inside quotes spells it. -/
theorem charText_escapeChar (c : Char) : CharText c (escapeChar c) := by
  have hshort : ∀ {letter d : Char}, c = d → (letter, d) ∈ shortEscapes →
      CharText c ['\\', letter] := by
    rintro letter d rfl h
    exact .short h
  have hcode : ∀ {code : Nat}, c.toNat = code → c = Char.ofNat code := by
    rintro code rfl
    exact (Char.ofNat_toNat c).symm
  rw [escapeChar]
  by_cases hquote : c = '"'
  · rw [if_pos hquote]
    exact hshort hquote (by decide)
  rw [if_neg hquote]
  by_cases hslash : c = '\\'
  · rw [if_pos hslash]
    exact hshort hslash (by decide)
  rw [if_neg hslash]
  by_cases hback : c.toNat = 0x8
  · rw [if_pos hback]
    exact hshort (hcode hback) (by decide)
  rw [if_neg hback]
  by_cases hpage : c.toNat = 0xC
  · rw [if_pos hpage]
    exact hshort (hcode hpage) (by decide)
  rw [if_neg hpage]
  by_cases hfeed : c = '\n'
  · rw [if_pos hfeed]
    exact hshort hfeed (by decide)
  rw [if_neg hfeed]
  by_cases hreturn : c = '\r'
  · rw [if_pos hreturn]
    exact hshort hreturn (by decide)
  rw [if_neg hreturn]
  by_cases htab : c = '\t'
  · rw [if_pos htab]
    exact hshort htab (by decide)
  rw [if_neg htab]
  by_cases hcontrol : c.toNat < 0x20
  · rw [if_pos hcontrol]
    have hzero : hexValue? '0' = some 0 := by decide
    have hhex := HexText.digits hzero hzero (hexValue?_hexDigit (c.toNat / 16) (by omega))
      (hexValue?_hexDigit (c.toNat % 16) (by omega))
    have hvalue : ((0 * 16 + 0) * 16 + c.toNat / 16) * 16 + c.toNat % 16 = c.toNat := by omega
    rw [hvalue] at hhex
    exact .unit hhex
  · rw [if_neg hcontrol]
    exact .plain hquote hslash (by omega)

theorem charsText_flatMap (cs : List Char) : CharsText cs (cs.flatMap escapeChar) := by
  induction cs with
  | nil => exact .nil
  | cons c cs ih => exact .cons (charText_escapeChar c) ih

theorem tokenText_quoted (s : String) : TokenText (.string s) (quoted s) :=
  .string (charsText_flatMap s.toList)

theorem spells_scalar {levels : Nat} {v : Json} (h : Fits levels v)
    (harray : ∀ items, v ≠ .array items) (hobject : ∀ members, v ≠ .object members) :
    Spells (tokens v) (scalar v) := by
  cases v with
  | null => exact .token .null
  | bool b =>
      cases b with
      | false => exact .token .no
      | true => exact .token .yes
  | number literal =>
      rw [Fits] at h
      exact .token (.number h.isNumber)
  | string s => exact .token (tokenText_quoted s)
  | array items => exact absurd rfl (harray items)
  | object members => exact absurd rfl (hobject members)

theorem compactItems_eq_map (items : List Json) : compactItems items = items.map compact := by
  induction items with
  | nil => rw [compactItems, List.map_nil]
  | cons v items ih => rw [compactItems, ih, List.map_cons]

theorem compactMembers_eq_map (members : List (String × Json)) :
    compactMembers members = members.map fun m => quoted m.1 ++ ':' :: compact m.2 := by
  induction members with
  | nil => rw [compactMembers, List.map_nil]
  | cons m members ih => rw [compactMembers, ih, List.map_cons]

/-- A name, a colon and the text of a value spell a member. -/
theorem spells_member {v : Json} {text : List Char} (name : String) (h : Spells (tokens v) text) :
    Spells (.string name :: .colon :: tokens v) (quoted name ++ ':' :: text) :=
  .token_append (tokenText_quoted name) (.token_cons .colon h)

theorem spells_object {members : List (String × Json)}
    (h : ∀ m ∈ members, Spells (tokens m.2) (compact m.2)) :
    Spells (tokens (.object members)) (compact (.object members)) := by
  have hmembers := Spells.intercalate fun m hm => spells_member m.1 (h m hm)
  rw [tokens_object, compact, compactMembers_eq_map, List.cons_append]
  exact .token_cons .openObject (hmembers.append (.token .closeObject))

/-- The compact text spells the tokens of the value. -/
theorem spells_compact {levels : Nat} {v : Json} (h : Fits levels v) :
    Spells (tokens v) (compact v) := by
  -- the levels carry the induction, since the items of an array have one level less
  induction levels generalizing v with
  | zero =>
      cases v with
      | array items => exact h.elim
      | object members => exact h.elim
      | _ => exact spells_scalar h (by simp) (by simp)
  | succ levels ih =>
      cases v with
      | array items =>
          have hitems := Spells.intercalate fun v hv => ih (h v hv)
          rw [tokens_array, compact, compactItems_eq_map, List.cons_append]
          exact .token_cons .openArray (hitems.append (.token .closeArray))
      | object members => exact spells_object fun m hm => ih (h m hm)
      | _ => exact spells_scalar h (by simp) (by simp)

theorem prettyItems_eq_map (level : Nat) (items : List Json) :
    prettyItems level items = items.map (prettyAt level) := by
  induction items with
  | nil => rw [prettyItems, List.map_nil]
  | cons v items ih => rw [prettyItems, ih, List.map_cons]

theorem prettyMembers_eq_map (level : Nat) (members : List (String × Json)) :
    prettyMembers level members =
      members.map fun m => quoted m.1 ++ ':' :: ' ' :: prettyAt level m.2 := by
  induction members with
  | nil => rw [prettyMembers, List.map_nil]
  | cons m members ih => rw [prettyMembers, ih, List.map_cons]

theorem isBlanks_lineBreak (level : Nat) : IsBlanks (lineBreak level) := by
  intro c hc
  rcases List.mem_cons.1 hc with rfl | hc
  · decide
  · rw [List.eq_of_mem_replicate hc]
    decide

/-- Brackets around texts, one on a line, spell the tokens of all between these brackets. -/
theorem spells_block {α : Type} {xs : List α} {part : α → List Token} {texts : α → List Char}
    {opening closing : Token} {first last : Char} (level : Nat)
    (hopening : TokenText opening [first]) (hclosing : TokenText closing [last])
    (h : ∀ x ∈ xs, Spells (part x) (texts x)) :
    Spells (opening :: ([.comma].intercalate (xs.map part) ++ [closing]))
      (block level first last (xs.map texts)) := by
  have hend : Spells [closing] (lineBreak level ++ [last]) :=
    (Spells.token hclosing).blanks_append (isBlanks_lineBreak level)
  have hlines := Spells.intercalate fun x hx =>
    (h x hx).blanks_append (isBlanks_lineBreak (level + 1))
  cases xs with
  | nil => exact .token_cons hopening (.token hclosing)
  | cons x xs =>
      rw [block, if_neg (by simp), List.map_map, List.cons_append, List.cons_append,
        List.append_assoc]
      exact .token_cons hopening (hlines.append hend)

/-- The pretty text spells the tokens of the value, at every level. -/
theorem spells_prettyAt {levels : Nat} {v : Json} (h : Fits levels v) (level : Nat) :
    Spells (tokens v) (prettyAt level v) := by
  induction levels generalizing v level with
  | zero =>
      cases v with
      | array items => exact h.elim
      | object members => exact h.elim
      | _ => exact spells_scalar h (by simp) (by simp)
  | succ levels ih =>
      cases v with
      | array items =>
          rw [tokens_array, prettyAt, prettyItems_eq_map]
          exact spells_block level .openArray .closeArray fun v hv => ih (h v hv) (level + 1)
      | object members =>
          have hblank : IsBlanks [' '] := by
            intro c hc
            rw [List.mem_singleton.1 hc]
            decide
          rw [tokens_object, prettyAt, prettyMembers_eq_map]
          exact spells_block level .openObject .closeObject fun m hm =>
            spells_member m.1 ((ih (h m hm) (level + 1)).blanks_append hblank)
      | _ => exact spells_scalar h (by simp) (by simp)

/-- **The compact text is a text of the value.** -/
theorem isText_toCompact {levels : Nat} {v : Json} (h : Fits levels v) : IsText v v.toCompact := by
  rw [IsText, toCompact, String.toList_ofList]
  exact spells_compact h

/-- **The pretty text is a text of the value.** -/
theorem isText_toPretty {levels : Nat} {v : Json} (h : Fits levels v) : IsText v v.toPretty := by
  rw [IsText, toPretty, String.toList_ofList]
  exact spells_prettyAt h 0

end ModuleDeps.Json
