/-
Blank characters: the characters that separate words.

They are the characters with the Unicode property `White_Space`: the ASCII controls from tab to
carriage return, the space, and the wider spaces and line separators of other scripts.  The
separators U+001C to U+001F and the zero-width characters are not blank.
-/

import ModuleDeps.Text.CodeRange

set_option relaxedAutoImplicit false
set_option autoImplicit false

namespace ModuleDeps.Text

/-- The blank characters, in increasing order. -/
def blankRanges : List CodeRange :=
  [(0x9, 0xD), (0x20, 0x20), (0x85, 0x85), (0xA0, 0xA0), (0x1680, 0x1680), (0x2000, 0x200A),
    (0x2028, 0x2029), (0x202F, 0x202F), (0x205F, 0x205F), (0x3000, 0x3000)]

/-- Is the character blank? -/
def isBlank (c : Char) : Bool :=
  CodeRange.holds blankRanges c

end ModuleDeps.Text
