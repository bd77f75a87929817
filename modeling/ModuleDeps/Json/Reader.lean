/-
Reading JSON values.

The tokens of a text are read one by one by a machine whose state is what may come next.  While it
is inside arrays and objects it keeps a stack of the unfinished ones, the innermost first, so that
the depth of the nesting is the height of the stack; it is limited.

Main definitions:

* `ModuleDeps.Json.Frame`, `ModuleDeps.Json.State` — an unfinished array or object, and what may
  come next;
* `ModuleDeps.Json.State.step` — one token;
* `ModuleDeps.Json.readFirst` — the value at the front of a text, and whether something follows it;
* `ModuleDeps.Json.read` — the value that a text is.
-/

import ModuleDeps.Json.Token

set_option relaxedAutoImplicit false
set_option autoImplicit false

namespace ModuleDeps.Json

/-- An array or object that is not finished; what has been read of it stands last first. -/
inductive Frame where
  /-- An array with the items read so far. -/
  | array (items : List Json)
  /-- An object with the members read so far and the name of the next one. -/
  | object (members : List (String × Json)) (name : String)

/-- What may come next. -/
inductive State where
  /-- A value. -/
  | value (stack : List Frame)
  /-- The first item of an array, or its end. -/
  | firstItem (stack : List Frame)
  /-- The first name of an object, or its end. -/
  | firstName (stack : List Frame)
  /-- The next name of an object. -/
  | nextName (stack : List Frame) (members : List (String × Json))
  /-- The colon behind a name. -/
  | colon (stack : List Frame) (members : List (String × Json)) (name : String)
  /-- Behind an item: a comma, or the end of the array. -/
  | afterItem (stack : List Frame) (items : List Json)
  /-- Behind a member: a comma, or the end of the object. -/
  | afterMember (stack : List Frame) (members : List (String × Json))
  /-- Nothing: the value is complete. -/
  | done (v : Json)

/-- The greatest number of arrays and objects that may be open at once. -/
def maxDepth : Nat := 127

/-- The state behind a complete value. -/
def State.finish (v : Json) : List Frame → State
  | [] => .done v
  | .array items :: stack => .afterItem stack (v :: items)
  | .object members name :: stack => .afterMember stack ((name, v) :: members)

/-- The state behind a token with which a value starts. -/
def State.startValue (stack : List Frame) : Token → Except JsonFlaw State
  | .null => .ok (finish .null stack)
  | .bool b => .ok (finish (.bool b) stack)
  | .number literal => .ok (finish (.number literal) stack)
  | .string s => .ok (finish (.string s) stack)
  | .openArray => if stack.length < maxDepth then .ok (.firstItem stack) else .error .malformed
  | .openObject => if stack.length < maxDepth then .ok (.firstName stack) else .error .malformed
  | .broken _ flaw => .error flaw
  | _ => .error .malformed

/-- The state behind a token that must be a name. -/
def State.startMember (stack : List Frame) (members : List (String × Json)) :
    Token → Except JsonFlaw State
  | .string name => .ok (.colon stack members name)
  | .broken true flaw => .error flaw
  | _ => .error .malformed

/-- One token. -/
def State.step : State → Token → Except JsonFlaw State
  | .value stack, token => startValue stack token
  | .firstItem stack, .closeArray => .ok (finish (.array []) stack)
  | .firstItem stack, token => startValue (.array [] :: stack) token
  | .firstName stack, .closeObject => .ok (finish (.object []) stack)
  | .firstName stack, token => startMember stack [] token
  | .nextName stack members, token => startMember stack members token
  | .colon stack members name, .colon => .ok (.value (.object members name :: stack))
  | .afterItem stack items, .comma => .ok (.value (.array items :: stack))
  | .afterItem stack items, .closeArray => .ok (finish (.array items.reverse) stack)
  | .afterMember stack members, .comma => .ok (.nextName stack members)
  | .afterMember stack members, .closeObject => .ok (finish (.object members.reverse) stack)
  | _, _ => .error .malformed

/-- Reads tokens until a value is complete.  Gives the value and whether tokens are left over. -/
def State.run : State → List Token → Except JsonFlaw (Json × Bool)
  | .done v, tokens => .ok (v, !tokens.isEmpty)
  | _, [] => .error .truncated
  | state, token :: tokens =>
    match state.step token with
    | .error flaw => .error flaw
    | .ok next => next.run tokens

/-- The value at the front of a text, and whether more than blanks follow it. -/
def readFirst (text : String) : Except JsonFlaw (Json × Bool) :=
  (State.value []).run (tokenize text.toList)

/-- The value that a text is. -/
def read (text : String) : Except JsonFlaw Json :=
  match readFirst text with
  | .error flaw => .error flaw
  | .ok (v, more) => if more then .error .malformed else .ok v

end ModuleDeps.Json
