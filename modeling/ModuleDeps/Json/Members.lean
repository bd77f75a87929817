/-
Reading an object for some of its members.

Only the members whose names matter have to have a value.  Of the others it is enough that their
tokens are nested as a value's are: the numbers in them may be too large, the strings may hold half
of a pair, and the nesting may be as deep as it likes.

Main definitions:

* `ModuleDeps.Json.skipValue` — what is left of tokens behind a value;
* `ModuleDeps.Json.membersOf?` — the members of an object whose names matter.

Main results:

* `ModuleDeps.Json.length_of_skipValue` — a value has a token at least.
-/

import ModuleDeps.Json.Reader

set_option relaxedAutoImplicit false
set_option autoImplicit false

namespace ModuleDeps.Json

/-! ### Skipping a value -/

/-- What may come next while a value is skipped. -/
inductive Expected where
  /-- A value. -/
  | value
  /-- The first item of an array, or its end. -/
  | firstItem
  /-- The first name of an object, or its end. -/
  | firstName
  /-- A name. -/
  | name
  /-- The colon behind a name. -/
  | colon
  /-- A comma, or the end of the array or object. -/
  | more
  deriving DecidableEq, Repr

/-- An array or object that is being skipped. -/
inductive Nest where
  /-- An array. -/
  | array
  /-- An object. -/
  | object
  deriving DecidableEq, Repr

/-- A token with which a value starts. -/
def skipStart (nests : List Nest) : Token → Option (Expected × List Nest)
  | .null | .bool _ | .number _ | .hugeNumber | .string _ | .halfPair => some (.more, nests)
  | .openArray => some (.firstItem, .array :: nests)
  | .openObject => some (.firstName, .object :: nests)
  | _ => none

/-- A token that must be a name. -/
def skipName (nests : List Nest) : Token → Option (Expected × List Nest)
  | .string _ | .halfPair => some (.colon, nests)
  | _ => none

/-- One token. -/
def skipToken : Expected → List Nest → Token → Option (Expected × List Nest)
  | .value, nests, token => skipStart nests token
  | .firstItem, .array :: nests, .closeArray => some (.more, nests)
  | .firstItem, nests, token => skipStart nests token
  | .firstName, .object :: nests, .closeObject => some (.more, nests)
  | .firstName, nests, token => skipName nests token
  | .name, nests, token => skipName nests token
  | .colon, nests, .colon => some (.value, nests)
  | .more, .array :: nests, .comma => some (.value, .array :: nests)
  | .more, .array :: nests, .closeArray => some (.more, nests)
  | .more, .object :: nests, .comma => some (.name, .object :: nests)
  | .more, .object :: nests, .closeObject => some (.more, nests)
  | _, _, _ => none

/-- What is left of tokens when all arrays and objects have ended. -/
def skipAll : Expected → List Nest → List Token → Option (List Token)
  | .more, [], tokens => some tokens
  | _, _, [] => none
  | expected, nests, token :: tokens =>
    match skipToken expected nests token with
    | none => none
    | some (expected', nests') => skipAll expected' nests' tokens

/-- What is left of tokens behind a value. -/
def skipValue : List Token → Option (List Token)
  | [] => none
  | token :: tokens =>
    match skipStart [] token with
    | none => none
    | some (expected, nests) => skipAll expected nests tokens

theorem length_of_skipAll {expected : Expected} {nests : List Nest} {tokens rest : List Token}
    (h : skipAll expected nests tokens = some rest) : rest.length ≤ tokens.length := by
  fun_induction skipAll expected nests tokens with
  | case1 => cases h; exact Nat.le_refl _
  | case2 => cases h
  | case3 => cases h
  | case4 _ _ _ _ _ _ _ _ ih =>
      have := ih h
      simp only [List.length_cons]
      omega

/-- A value has a token at least. -/
theorem length_of_skipValue {tokens rest : List Token} (h : skipValue tokens = some rest) :
    rest.length < tokens.length := by
  unfold skipValue at h
  split at h
  · cases h
  · split at h
    · cases h
    · exact Nat.lt_succ_of_le (length_of_skipAll h)

/-! ### Members -/

/-- The value that tokens are, if they are one. -/
def valueOf? (tokens : List Token) : Option Json :=
  match (State.value []).run tokens with
  | .ok (v, false) => some v
  | _ => none

/-- The members read before a member, and the member itself if its name matters. -/
def addMember (matters : String → Bool) (read : List (String × Json)) (name : String)
    (tokens rest : List Token) : Option (List (String × Json)) :=
  if matters name then
    (valueOf? (tokens.take (tokens.length - rest.length))).map fun v => (name, v) :: read
  else some read

/-- The members of an object whose names matter, behind those already read, of which the last one
comes first. -/
def membersFrom (matters : String → Bool) (read : List (String × Json)) (tokens : List Token) :
    Option (List (String × Json)) :=
  match tokens with
  | .string name :: .colon :: behind =>
    match h : skipValue behind with
    | none => none
    | some rest =>
      have := length_of_skipValue h
      match addMember matters read name behind rest, rest with
      | some read', [.closeObject] => some read'.reverse
      | some read', .comma :: next => membersFrom matters read' next
      | _, _ => none
  | _ => none
termination_by tokens.length
decreasing_by
  simp only [List.length_cons] at *
  omega

/-- The members of the object that a text is whose names matter. -/
def membersOf? (matters : String → Bool) (text : String) : Option (List (String × Json)) :=
  match tokenize text.toList with
  | [.openObject, .closeObject] => some []
  | .openObject :: tokens => membersFrom matters [] tokens
  | _ => none

end ModuleDeps.Json
