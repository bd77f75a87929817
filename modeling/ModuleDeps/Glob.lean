/-
Patterns on names, as they are used to leave modules out.

In a pattern `?` stands for any one character, `*` for any text, `[abc]` and `[a-z]` for one
character of a set, `[!abc]` for one character outside it, and a component `**` between slashes for
any number of whole components; every other character stands for itself.  A pattern matches a text
as a whole.

Main definitions:

* `ModuleDeps.Glob.Flaw` — why a text is no pattern;
* `ModuleDeps.Glob.Token`, `ModuleDeps.Glob` — the parts of a pattern, and a pattern;
* `ModuleDeps.Glob.parse` — the pattern that a text denotes;
* `ModuleDeps.Glob.accepts` — does the pattern match the text?
-/

set_option relaxedAutoImplicit false
set_option autoImplicit false

namespace ModuleDeps

namespace Glob

/-! ### Flaws -/

/-- What is wrong at some place of a pattern. -/
inductive FlawKind where
  /-- Three or more stars in a row. -/
  | longStarRun
  /-- Two stars that are not a component of their own. -/
  | strayDoubleStar
  /-- A bracket that opens no set. -/
  | openBracket
  deriving DecidableEq, Repr

/-- What is said about a flaw. -/
def FlawKind.text : FlawKind → String
  | .longStarRun => "wildcards are either regular `*` or recursive `**`"
  | .strayDoubleStar => "recursive wildcards must form a single path component"
  | .openBracket => "invalid range pattern"

/-- The first flaw of a text that is no pattern. -/
structure Flaw where
  /-- The number of characters before the place of the flaw. -/
  position : Nat
  /-- What is wrong there. -/
  kind : FlawKind
  deriving DecidableEq, Repr

/-- The full text about a flaw. -/
def Flaw.message (flaw : Flaw) : String :=
  "Pattern syntax error near position " ++ toString flaw.position ++ ": " ++ flaw.kind.text

/-! ### Patterns -/

/-- A member of a set in brackets. -/
inductive SetItem where
  /-- One character. -/
  | one (c : Char)
  /-- All characters from `first` to `last`. -/
  | span (first last : Char)
  deriving DecidableEq, Repr

/-- Does the member of a set stand for the character? -/
def SetItem.holds : SetItem → Char → Bool
  | .one d, c => c == d
  | .span first last, c => first ≤ c && c ≤ last

/-- A part of a pattern. -/
inductive Token where
  /-- The character itself. -/
  | literal (c : Char)
  /-- Any one character. -/
  | anyChar
  /-- Any text. -/
  | anyText
  /-- Any number of whole components. -/
  | anyComponents
  /-- One character of the set. -/
  | within (items : List SetItem)
  /-- One character outside the set. -/
  | outside (items : List SetItem)
  deriving DecidableEq, Repr

end Glob

/-- A pattern: its parts from left to right. -/
structure Glob where
  /-- The parts of the pattern. -/
  tokens : List Glob.Token
  deriving DecidableEq, Repr

namespace Glob

/-! ### Reading a pattern -/

/-- The members of a set: three characters with a dash in the middle are a span. -/
def setItems : List Char → List SetItem
  | first :: '-' :: last :: rest => .span first last :: setItems rest
  | c :: rest => .one c :: setItems rest
  | [] => []

/-- The text before the first closing bracket and the text behind it. -/
def closeBracket? (cs : List Char) : Option (List Char × List Char) :=
  match cs.dropWhile (· != ']') with
  | [] => none
  | _ :: rest => some (cs.takeWhile (· != ']'), rest)

/-- The set that a bracket opens, and the text behind its closing bracket.  The first character of
a set, behind the exclamation mark if there is one, never closes it. -/
def set? : List Char → Option (Token × List Char)
  | '!' :: c :: rest =>
    (closeBracket? rest).map fun (inner, rest') => (.outside (setItems (c :: inner)), rest')
  | '!' :: [] => none
  | c :: rest =>
    (closeBracket? rest).map fun (inner, rest') => (.within (setItems (c :: inner)), rest')
  | [] => none

theorem length_of_closeBracket? {cs inner rest : List Char}
    (h : closeBracket? cs = some (inner, rest)) : rest.length < cs.length := by
  rw [closeBracket?] at h
  split at h
  · simp at h
  · next d tail hd =>
    have hs := (List.dropWhile_suffix (· != ']') (l := cs)).length_le
    rw [hd, List.length_cons] at hs
    simp only [Option.some.injEq, Prod.mk.injEq] at h
    obtain ⟨-, rfl⟩ := h
    exact hs

theorem length_of_set? {cs rest : List Char} {token : Token} (h : set? cs = some (token, rest)) :
    rest.length < cs.length := by
  unfold set? at h
  split at h
  all_goals first
    | simp at h; done
    | obtain ⟨p, hp, he⟩ := Option.map_eq_some_iff.1 h
      have hl := length_of_closeBracket? hp
      simp_all
      omega

/-- The parts of the pattern that the rest of a text denotes.  `position` characters come before
the rest, and `before` is the last of them. -/
def readTokens (position : Nat) (before : Option Char) (cs : List Char) :
    Except Flaw (List Token) :=
  match cs with
  | [] => .ok []
  | '*' :: '*' :: '*' :: _ => .error ⟨position + 2, .longStarRun⟩
  | '*' :: '*' :: rest =>
    if before = none ∨ before = some '/' then
      match rest with
      | [] => .ok [.anyComponents]
      | '/' :: rest' => (.anyComponents :: ·) <$> readTokens (position + 3) (some '/') rest'
      | _ => .error ⟨position + 2, .strayDoubleStar⟩
    else .error ⟨position - 1, .strayDoubleStar⟩
  | '*' :: rest => (.anyText :: ·) <$> readTokens (position + 1) (some '*') rest
  | '?' :: rest => (.anyChar :: ·) <$> readTokens (position + 1) (some '?') rest
  | '[' :: rest =>
    match h : set? rest with
    | none => .error ⟨position, .openBracket⟩
    | some (token, rest') =>
      have := length_of_set? h
      (token :: ·) <$> readTokens (position + 1 + (rest.length - rest'.length)) (some ']') rest'
  | c :: rest => (.literal c :: ·) <$> readTokens (position + 1) (some c) rest
termination_by cs.length

/-- The pattern that a text denotes, or its first flaw. -/
def parse (text : String) : Except Flaw Glob :=
  Glob.mk <$> readTokens 0 none text.toList

/-! ### Matching -/

/-- All ends of a text, the longest first. -/
def ends : List Char → List (List Char)
  | [] => [[]]
  | c :: cs => (c :: cs) :: ends cs

/-- The ends of a text that stand right behind a slash. -/
def endsBehindSlash : List Char → List (List Char)
  | [] => []
  | c :: cs => if c = '/' then cs :: endsBehindSlash cs else endsBehindSlash cs

/-- The longest of some texts. -/
def longest? (texts : List (List Char)) : Option (List Char) :=
  texts.foldl (fun best cs => match best with
    | none => some cs
    | some b => if b.length < cs.length then some cs else some b) none

/-- What is left of a text when one character of a class is taken from its front. -/
def takeChar? (isTaken : Char → Bool) : List Char → Option (List Char)
  | [] => none
  | c :: cs => if isTaken c then some cs else none

/-- What may be left of a text behind one more part of the pattern, when `left` may be left before
it.  All members of `left` are ends of one text, so the ends of the longest of them are the ends of
all. -/
def Token.advance (left : List (List Char)) : Token → List (List Char)
  | .literal c => left.filterMap (takeChar? (· == c))
  | .anyChar => left.filterMap (takeChar? fun _ => true)
  | .within items => left.filterMap (takeChar? fun c => items.any (·.holds c))
  | .outside items => left.filterMap (takeChar? fun c => !items.any (·.holds c))
  | .anyText => ((longest? left).map ends).getD []
  | .anyComponents =>
    match longest? left with
    | none => []
    | some cs => left ++ endsBehindSlash cs ++ [[]]

/-- Does the pattern match the text as a whole? -/
def accepts (pattern : Glob) (text : String) : Bool :=
  (pattern.tokens.foldl Token.advance [text.toList]).any (·.isEmpty)

end Glob

end ModuleDeps
