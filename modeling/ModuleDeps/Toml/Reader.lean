/-
Reading the settings language TOML.

A text is a sequence of lines: blank ones, assignments `key = value`, and headers `[table]`, each of
which may end in a comment.  A header in double brackets would add a table to an array of tables; no
setting is one, so it is refused.

The readers take the rest of a text and give what they read together with what is left, or nothing
if the text is not well formed there.  Each of them leaves less than it has been given, so that
those which repeat come to an end.

Main definitions:

* `ModuleDeps.Toml.Rest` — what is left of a text of which something has been read;
* `ModuleDeps.Toml.readKey`, `ModuleDeps.Toml.readString`, `ModuleDeps.Toml.readValue` — a key, a
  string and a value at the front of a text;
* `ModuleDeps.Toml.read` — the members of the outermost table of a text.
-/

import ModuleDeps.Json.Token
import ModuleDeps.Toml.Basic

set_option relaxedAutoImplicit false
set_option autoImplicit false

namespace ModuleDeps.Toml

open Json (hexValue?)

/-! ### Blanks, comments and line ends -/

/-- Is the character a blank inside a line? -/
def isSpace (c : Char) : Bool :=
  c == ' ' || c == '\t'

/-- May the character stand in a comment or a string? -/
def isPrintable (c : Char) : Bool :=
  c == '\t' || (0x20 ≤ c.toNat && c.toNat != 0x7F)

/-- A text without the blanks in front of it. -/
def skipSpaces (cs : List Char) : List Char :=
  cs.dropWhile isSpace

/-- What is left behind a line end. -/
def lineEnd? : List Char → Option (List Char)
  | '\n' :: rest => some rest
  | '\r' :: '\n' :: rest => some rest
  | _ => none

/-- A text without a comment in front of it. -/
def skipComment : List Char → List Char
  | '#' :: rest => rest.dropWhile isPrintable
  | cs => cs

/-- What is left behind the rest of a line in which only a comment may stand. -/
def endLine (cs : List Char) : Option (List Char) :=
  match skipComment (skipSpaces cs) with
  | [] => some []
  | rest => lineEnd? rest

theorem length_of_lineEnd? {cs rest : List Char} (h : lineEnd? cs = some rest) :
    rest.length < cs.length := by
  unfold lineEnd? at h
  split at h
  · cases h
    exact Nat.lt_succ_self _
  · cases h
    simp only [List.length_cons]
    omega
  · cases h

theorem length_skipSpaces_le (cs : List Char) : (skipSpaces cs).length ≤ cs.length :=
  (List.dropWhile_sublist isSpace).length_le

theorem length_skipComment_le (cs : List Char) : (skipComment cs).length ≤ cs.length := by
  unfold skipComment
  split
  · next rest =>
      have := (List.dropWhile_sublist isPrintable (l := rest)).length_le
      simp only [List.length_cons]
      omega
  · exact Nat.le_refl _

theorem length_of_endLine {cs rest : List Char} (h : endLine cs = some rest) :
    rest.length ≤ cs.length := by
  have hle := Nat.le_trans (length_skipComment_le (skipSpaces cs)) (length_skipSpaces_le cs)
  unfold endLine at h
  split at h
  · cases h
    exact Nat.zero_le _
  · exact Nat.le_trans (Nat.le_of_lt (length_of_lineEnd? h)) hle

/-- A text without the blanks, comments and line ends in front of it. -/
def skipFiller (cs : List Char) : List Char :=
  match h : lineEnd? (skipComment (skipSpaces cs)) with
  | some rest =>
    have : rest.length < cs.length :=
      Nat.lt_of_lt_of_le (length_of_lineEnd? h)
        (Nat.le_trans (length_skipComment_le _) (length_skipSpaces_le cs))
    skipFiller rest
  | none => skipComment (skipSpaces cs)
termination_by cs.length

theorem length_skipFiller_le (cs : List Char) : (skipFiller cs).length ≤ cs.length := by
  fun_induction skipFiller cs with
  | case1 cs rest h hlt ih => omega
  | case2 cs h => exact Nat.le_trans (length_skipComment_le _) (length_skipSpaces_le cs)

/-! ### What is left -/

/-- What is left of a text of which something has been read. -/
abbrev Rest (cs : List Char) := { rest : List Char // rest.length < cs.length }

/-- What is left behind the first character of a text. -/
def Rest.tail (c : Char) (rest : List Char) : Rest (c :: rest) :=
  ⟨rest, Nat.lt_succ_self _⟩

/-- What is left behind the first character of a part of a text. -/
def Rest.behind {cs part rest : List Char} {c : Char} (h : part = c :: rest)
    (hle : part.length ≤ cs.length) : Rest cs :=
  ⟨rest, Nat.lt_of_lt_of_le (h ▸ Nat.lt_succ_self rest.length) hle⟩

/-- What is left of a shorter text is left of a longer one. -/
def widen {α : Type} {cs cs' : List Char} (h : cs.length ≤ cs'.length) :
    Option (α × Rest cs) → Option (α × Rest cs') :=
  Option.map fun (a, rest) => (a, ⟨rest.1, Nat.lt_of_lt_of_le rest.2 h⟩)

/-! ### Strings -/

/-- The character with the number that some hexadecimal digits denote. -/
def hexChar (digits : List Char) : Option Char := do
  let n := (← digits.mapM hexValue?).foldl (fun n d => 16 * n + d) 0
  if n < 0xD800 || (0xDFFF < n && n < 0x110000) then some (Char.ofNat n) else none

/-- The character of an escape with a letter and the given number of hexadecimal digits. -/
def hexEscape (count : Nat) (letter : Char) (cs : List Char) :
    Option (Char × Rest (letter :: cs)) :=
  if cs.length < count then none
  else (hexChar (cs.take count)).map fun c =>
    (c, ⟨cs.drop count, Nat.lt_succ_of_le (List.drop_sublist count cs).length_le⟩)

/-- The character of an escape: what follows a backslash. -/
def escape : (cs : List Char) → Option (Char × Rest cs)
  | 'b' :: rest => some (Char.ofNat 0x8, .tail _ rest)
  | 't' :: rest => some ('\t', .tail _ rest)
  | 'n' :: rest => some ('\n', .tail _ rest)
  | 'f' :: rest => some (Char.ofNat 0xC, .tail _ rest)
  | 'r' :: rest => some ('\r', .tail _ rest)
  | 'e' :: rest => some (Char.ofNat 0x1B, .tail _ rest)
  | '"' :: rest => some ('"', .tail _ rest)
  | '\\' :: rest => some ('\\', .tail _ rest)
  | 'x' :: rest => hexEscape 2 'x' rest
  | 'u' :: rest => hexEscape 4 'u' rest
  | 'U' :: rest => hexEscape 8 'U' rest
  | _ => none

/-- What is read, of which the last character comes first, as a string. -/
def finish (read : List Char) : String :=
  String.ofList read.reverse

/-- A string behind its opening double quote. -/
def basicString (read cs : List Char) : Option (String × Rest cs) :=
  match cs with
  | '"' :: rest => some (finish read, .tail _ rest)
  | '\\' :: rest =>
    match escape rest with
    | none => none
    | some (c, ⟨left, _⟩) => widen (by simp only [List.length_cons]; omega)
        (basicString (c :: read) left)
  | c :: rest =>
    if isPrintable c then widen (Nat.le_succ _) (basicString (c :: read) rest) else none
  | [] => none
termination_by cs.length

/-- A string behind its opening single quote: nothing in it is escaped. -/
def literalString (cs : List Char) : Option (String × Rest cs) :=
  match h : cs.dropWhile fun c => c != '\'' && isPrintable c with
  | '\'' :: _ => some (String.ofList (cs.takeWhile fun c => c != '\'' && isPrintable c),
      .behind h (List.dropWhile_sublist _).length_le)
  | _ => none

/-- A text without the line end right behind three opening quotes. -/
def skipFirstLineEnd (cs : List Char) : List Char :=
  (lineEnd? cs).getD cs

theorem length_skipFirstLineEnd_le (cs : List Char) :
    (skipFirstLineEnd cs).length ≤ cs.length := by
  rw [skipFirstLineEnd]
  cases h : lineEnd? cs with
  | none => exact Nat.le_refl _
  | some rest => exact Nat.le_of_lt (length_of_lineEnd? h)

/-- The end of a string of several lines: three quotes, before which up to two more belong to the
string. -/
def closeLong? (quote : Char) (read cs : List Char) : Option (String × Rest cs) :=
  let run := (cs.takeWhile (· == quote)).length
  if h : run < 3 then none
  else
    let kept := min (run - 3) 2
    have hrun : run ≤ cs.length := (List.takeWhile_sublist _).length_le
    some (finish (List.replicate kept quote ++ read),
      ⟨cs.drop (kept + 3), by rw [List.length_drop]; omega⟩)

/-- A text without the blanks and line ends in front of it. -/
def skipBlankLines (cs : List Char) : List Char :=
  match h : lineEnd? (skipSpaces cs) with
  | some rest =>
    have : rest.length < cs.length :=
      Nat.lt_of_lt_of_le (length_of_lineEnd? h) (length_skipSpaces_le cs)
    skipBlankLines rest
  | none => skipSpaces cs
termination_by cs.length

theorem length_skipBlankLines_le (cs : List Char) : (skipBlankLines cs).length ≤ cs.length := by
  fun_induction skipBlankLines cs with
  | case1 cs rest h hlt ih => omega
  | case2 cs h => exact length_skipSpaces_le cs

/-- What is left behind a line end with blanks before it and blank lines behind it. -/
def continuation? (cs : List Char) : Option (Rest cs) :=
  match h : lineEnd? (skipSpaces cs) with
  | none => none
  | some rest => some ⟨skipBlankLines rest, Nat.lt_of_le_of_lt (length_skipBlankLines_le rest)
      (Nat.lt_of_lt_of_le (length_of_lineEnd? h) (length_skipSpaces_le cs))⟩

/-- A string of several lines behind its opening quotes.  Escapes count only between double
quotes. -/
def longString (quote : Char) (read cs : List Char) : Option (String × Rest cs) :=
  match closeLong? quote read cs with
  | some found => some found
  | none =>
    match cs with
    | [] => none
    | '\n' :: rest => widen (Nat.le_succ _) (longString quote ('\n' :: read) rest)
    | '\r' :: '\n' :: rest =>
      widen (by simp only [List.length_cons]; omega) (longString quote ('\n' :: '\r' :: read) rest)
    | c :: rest =>
      if c = '\\' ∧ quote = '"' then
        match continuation? rest with
        | some ⟨left, _⟩ =>
          widen (by simp only [List.length_cons]; omega) (longString quote read left)
        | none =>
          match escape rest with
          | none => none
          | some (d, ⟨left, _⟩) =>
            widen (by simp only [List.length_cons]; omega) (longString quote (d :: read) left)
      else if isPrintable c then widen (Nat.le_succ _) (longString quote (c :: read) rest)
      else none
termination_by cs.length

/-- A string of one line. -/
def readShortString : (cs : List Char) → Option (String × Rest cs)
  | '"' :: rest => widen (Nat.le_succ _) (basicString [] rest)
  | '\'' :: rest => widen (Nat.le_succ _) (literalString rest)
  | _ => none

/-- A string of several lines behind the first line end. -/
def readLongString (quote : Char) (cs : List Char) : Option (String × Rest cs) :=
  widen (length_skipFirstLineEnd_le cs) (longString quote [] (skipFirstLineEnd cs))

/-- A string. -/
def readString : (cs : List Char) → Option (String × Rest cs)
  | '"' :: '"' :: '"' :: rest =>
    widen (by simp only [List.length_cons]; omega) (readLongString '"' rest)
  | '\'' :: '\'' :: '\'' :: rest =>
    widen (by simp only [List.length_cons]; omega) (readLongString '\'' rest)
  | cs => readShortString cs

/-! ### Keys -/

/-- May the character stand in a key without quotes? -/
def isKeyChar (c : Char) : Bool :=
  c.isAlphanum || c == '_' || c == '-'

theorem length_dropWhile_lt {p : Char → Bool} {cs word : List Char} {c : Char}
    (h : cs.takeWhile p = c :: word) : (cs.dropWhile p).length < cs.length := by
  have hsplit := congrArg List.length (List.takeWhile_append_dropWhile (p := p) (l := cs))
  rw [h, List.length_append, List.length_cons] at hsplit
  omega

/-- One part of a dotted key. -/
def readSimpleKey (cs : List Char) : Option (String × Rest cs) :=
  match h : cs.takeWhile isKeyChar with
  | [] => readShortString cs
  | c :: name =>
    some (String.ofList (c :: name), ⟨cs.dropWhile isKeyChar, length_dropWhile_lt h⟩)

/-- A dotted key, and the text behind it without blanks. -/
def readKey (cs : List Char) : Option (List String × Rest cs) :=
  match widen (length_skipSpaces_le cs) (readSimpleKey (skipSpaces cs)) with
  | none => none
  | some (name, ⟨rest, hrest⟩) =>
    match h : skipSpaces rest with
    | '.' :: rest' =>
      have : rest'.length < cs.length := by
        have := length_skipSpaces_le rest
        rw [h, List.length_cons] at this
        omega
      (widen (Nat.le_of_lt this) (readKey rest')).map fun (names, left) => (name :: names, left)
    | left => some ([name], ⟨left, Nat.lt_of_le_of_lt (h ▸ length_skipSpaces_le rest) hrest⟩)
termination_by cs.length

/-! ### Numbers and truth values -/

/-- The digits of a number with the underscores between them left out. -/
def withoutUnderscores (isDigit : Char → Bool) : List Char → Option (List Char)
  | [] => none
  | [c] => if isDigit c then some [c] else none
  | c :: '_' :: rest =>
    if isDigit c then (withoutUnderscores isDigit rest).map (c :: ·) else none
  | c :: rest => if isDigit c then (withoutUnderscores isDigit rest).map (c :: ·) else none

/-- The number that digits of the given base denote. -/
def ofBase (base : Nat) (digits : List Char) : Option Nat := do
  let digits ← withoutUnderscores (fun c => (hexValue? c).any (· < base)) digits
  some ((← digits.mapM hexValue?).foldl (fun n d => base * n + d) 0)

/-- The number that decimal digits denote: a zero in front stands alone. -/
def ofDecimal (digits : List Char) : Option Nat :=
  match digits with
  | '0' :: _ :: _ => none
  | _ => ofBase 10 digits

/-- The value of a word: a truth value, an integer, or a value that no setting takes. -/
def ofBareWord (word : List Char) : Toml :=
  match word with
  | ['t', 'r', 'u', 'e'] => .boolean true
  | ['f', 'a', 'l', 's', 'e'] => .boolean false
  | '0' :: 'x' :: digits => ((ofBase 16 digits).map (.integer ·)).getD .other
  | '0' :: 'o' :: digits => ((ofBase 8 digits).map (.integer ·)).getD .other
  | '0' :: 'b' :: digits => ((ofBase 2 digits).map (.integer ·)).getD .other
  | '+' :: digits => ((ofDecimal digits).map (.integer ·)).getD .other
  | '-' :: digits => ((ofDecimal digits).map (.integer <| -·)).getD .other
  | digits => ((ofDecimal digits).map (.integer ·)).getD .other

/-- May the character stand in a word? -/
def isWordChar (c : Char) : Bool :=
  isKeyChar c || c == '+' || c == '.' || c == ':'

/-! ### Values -/

mutual

/-- A value. -/
def readValue (cs : List Char) : Option (Toml × Rest cs) :=
  match cs with
  | '[' :: rest => widen (Nat.le_succ _) (readItems [] rest)
  | '\x7b' :: rest => widen (Nat.le_succ _) (readMembers [] rest)
  | '"' :: rest => (readString ('"' :: rest)).map fun (s, left) => (.string s, left)
  | '\'' :: rest => (readString ('\'' :: rest)).map fun (s, left) => (.string s, left)
  | cs =>
    match h : cs.takeWhile isWordChar with
    | [] => none
    | c :: word =>
      some (ofBareWord (c :: word), ⟨cs.dropWhile isWordChar, length_dropWhile_lt h⟩)
termination_by 2 * cs.length

/-- The rest of an array; a comma may follow its last item.  The last item read comes first. -/
def readItems (items : List Toml) (cs : List Char) : Option (Toml × Rest cs) :=
  match h : skipFiller cs with
  | ']' :: _ => some (.array items.reverse, .behind h (length_skipFiller_le cs))
  | start =>
    have : start.length ≤ cs.length := h ▸ length_skipFiller_le cs
    match readValue start with
    | none => none
    | some (v, ⟨rest, _⟩) =>
      have hrest : (skipFiller rest).length ≤ cs.length :=
        Nat.le_trans (length_skipFiller_le rest) (by omega)
      match h' : skipFiller rest with
      | ',' :: rest' =>
        have : rest'.length < cs.length := (Rest.behind h' hrest).2
        widen (Nat.le_of_lt this) (readItems (v :: items) rest')
      | ']' :: _ => some (.array (v :: items).reverse, .behind h' hrest)
      | _ => none
termination_by 2 * cs.length + 1

/-- The rest of a table between braces; a comma may follow its last member. -/
def readMembers (members : Members) (cs : List Char) : Option (Toml × Rest cs) :=
  match h : skipFiller cs with
  | '\x7d' :: _ => some (.table .braces members, .behind h (length_skipFiller_le cs))
  | start =>
    have : start.length ≤ cs.length := h ▸ length_skipFiller_le cs
    match readKey start with
    | none => none
    | some (key, ⟨rest, _⟩) =>
      match h' : skipFiller rest with
      | '=' :: rest' =>
        have hvalue : (skipFiller rest').length < cs.length :=
          Nat.lt_of_le_of_lt (length_skipFiller_le rest')
            (Rest.behind h' (Nat.le_trans (length_skipFiller_le rest) (by omega))).2
        match readValue (skipFiller rest') with
        | none => none
        | some (v, ⟨left, _⟩) =>
          match assign v key members with
          | none => none
          | some members' =>
            have hleft : (skipFiller left).length ≤ cs.length :=
              Nat.le_trans (length_skipFiller_le left) (by omega)
            match h'' : skipFiller left with
            | ',' :: next =>
              have : next.length < cs.length := (Rest.behind h'' hleft).2
              widen (Nat.le_of_lt this) (readMembers members' next)
            | '\x7d' :: _ => some (.table .braces members', .behind h'' hleft)
            | _ => none
      | _ => none
termination_by 2 * cs.length + 1

end

/-! ### Documents -/

/-- A header behind its opening bracket. -/
def readHeader (cs : List Char) : Option (List String × Rest cs) :=
  match readKey cs with
  | some (key, ⟨']' :: rest, h⟩) => some (key, ⟨rest, Nat.lt_of_succ_lt h⟩)
  | _ => none

/-- An assignment. -/
def readAssignment (cs : List Char) : Option ((List String × Toml) × Rest cs) :=
  match readKey cs with
  | some (key, ⟨'=' :: rest, h⟩) =>
    (widen (Nat.le_trans (length_skipSpaces_le rest) (Nat.le_of_lt (Nat.lt_of_succ_lt h)))
      (readValue (skipSpaces rest))).map fun (v, left) => ((key, v), left)
  | _ => none

/-- The members of the outermost table, given those read so far and the header that counts. -/
def readLines (header : List String) (members : Members) (cs : List Char) : Option Members :=
  match h : skipFiller cs with
  | [] => some members
  | '[' :: rest =>
    have : rest.length < cs.length := (Rest.behind h (length_skipFiller_le cs)).2
    (readHeader rest).bind fun (path, ⟨left, _⟩) =>
      (openTable path members).bind fun members' =>
        match h' : endLine left with
        | none => none
        | some next =>
          have := length_of_endLine h'
          readLines path members' next
  | start =>
    have : start.length ≤ cs.length := h ▸ length_skipFiller_le cs
    (readAssignment start).bind fun ((key, v), ⟨left, _⟩) =>
      (assignUnder header key v members).bind fun members' =>
        match h' : endLine left with
        | none => none
        | some next =>
          have := length_of_endLine h'
          readLines header members' next
termination_by cs.length

/-- A text without the mark that may stand at its very beginning. -/
def skipMark : List Char → List Char
  | c :: rest => if c.toNat = 0xFEFF then rest else c :: rest
  | [] => []

/-- The members of the outermost table of a text, if the text is well formed. -/
def read (text : String) : Option Members :=
  readLines [] [] (skipMark text.toList)

end ModuleDeps.Toml
