/-
Text with colours.

A text is a list of spans, each of which may have a style.  Written with colours, a styled span
stands between the control sequence of its style and the one that ends it; written without, every
span is just its text.

Main definitions:

* `ModuleDeps.Style`, `ModuleDeps.Span` — a style, and a piece of text that may have one;
* `ModuleDeps.Span.render` — the text of spans with or without colours.
-/

set_option relaxedAutoImplicit false
set_option autoImplicit false

namespace ModuleDeps

/-- How a span is shown. -/
inductive Style where
  | boldBlue
  | boldRed
  | red
  | green
  | yellow
  | cyan
  deriving DecidableEq, Repr

/-- The codes of a style. -/
def Style.codes : Style → String
  | .boldBlue => "1;34"
  | .boldRed => "1;31"
  | .red => "31"
  | .green => "32"
  | .yellow => "33"
  | .cyan => "36"

/-- A piece of text that may have a style. -/
structure Span where
  /-- The style. -/
  style : Option Style
  /-- The text. -/
  text : String
  deriving DecidableEq, Repr

namespace Span

/-- A span without a style. -/
def plain (text : String) : Span := ⟨none, text⟩

/-- A span with a style. -/
def styled (style : Style) (text : String) : Span := ⟨some style, text⟩

/-- The character that starts a control sequence. -/
def escapeCharacter : Char := Char.ofNat 0x1B

/-- A control sequence with the given codes. -/
def control (codes : String) : List Char :=
  escapeCharacter :: '[' :: codes.toList ++ ['m']

/-- The characters of a span. -/
def chars (colors : Bool) (span : Span) : List Char :=
  match span.style with
  | some style =>
    if colors then control style.codes ++ span.text.toList ++ control "0" else span.text.toList
  | none => span.text.toList

/-- The text of spans, with or without colours. -/
def render (colors : Bool) (spans : List Span) : String :=
  String.ofList (spans.flatMap (chars colors))

end Span

end ModuleDeps
