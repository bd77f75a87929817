/-
Reading import statements.

There are two forms: `import a.b, c as d` and `from a.b import (x, y as z)`.  A name in them is a
dotted path of identifiers, which dots in front make relative; dots alone are a path too.  A
statement of any other form imports nothing, and is not an error.

Main definitions:

* `ModuleDeps.Import.Statement` — what a statement says;
* `ModuleDeps.Import.Statement.read?` — the meaning of a text;
* `ModuleDeps.Import.Statement.records` — the dependencies that a statement declares;
* `ModuleDeps.Import.parse` — the dependencies that a text declares.
-/

import ModuleDeps.Text.Letter
import ModuleDeps.Text.Numeral
import ModuleDeps.Text.Pieces
import ModuleDeps.Import.Record

set_option relaxedAutoImplicit false
set_option autoImplicit false

namespace ModuleDeps.Import

open Text (isBlank cutAt trim trimStart words)

/-! ### Identifiers and paths -/

/-- May the character start an identifier? -/
def isIdentStart (c : Char) : Bool :=
  c == '_' || Text.isLetter c

/-- May the character continue an identifier? -/
def isIdentRest (c : Char) : Bool :=
  c == '_' || Text.isLetter c || Text.isNumeral c

/-- Is the text an identifier? -/
def isIdent : List Char → Bool
  | [] => false
  | c :: cs => isIdentStart c && cs.all isIdentRest

/-- Is the text a path: dots, or identifiers joined by dots behind any number of dots? -/
def isPath (cs : List Char) : Bool :=
  match cs.dropWhile (· == '.') with
  | [] => !cs.isEmpty
  | rest => (cutAt '.' rest).all isIdent

/-! ### Statements -/

/-- What an import statement says. -/
inductive Statement where
  /-- `import` with the paths of the modules. -/
  | modules (paths : List String)
  /-- `from` a path `import` the items. -/
  | items (path : String) (names : List String)
  deriving DecidableEq, Repr

/-- The text behind a keyword and the blanks that must follow it. -/
def afterKeyword? (keyword : String) (cs : List Char) : Option (List Char) :=
  if keyword.toList.isPrefixOf cs then
    match cs.drop keyword.length with
    | [] => none
    | c :: rest => if isBlank c then some (trimStart rest) else none
  else none

/-- The name in `name` or `name as alias`. -/
def beforeAlias? (cs : List Char) : Option (List Char) :=
  match words cs with
  | [name] => some name
  | [name, ['a', 's'], other] => if isIdent other then some name else none
  | _ => none

/-- The path of one module of an `import`. -/
def modulePath? (cs : List Char) : Option String :=
  (beforeAlias? cs).bind fun name => if isPath name then some (String.ofList name) else none

/-- One item of a `from … import`: a star, or an identifier that may have an alias. -/
def item? (cs : List Char) : Option String :=
  if trim cs = ['*'] then some "*"
  else (beforeAlias? cs).bind fun name => if isIdent name then some (String.ofList name) else none

/-- Are all characters blank? -/
def allBlank (cs : List Char) : Bool :=
  cs.all isBlank

/-- The pieces of a list in parentheses, in which a comma may follow the last item. -/
def dropTrailingBlank (pieces : List (List Char)) : List (List Char) :=
  if 1 < pieces.length && pieces.getLast?.any allBlank then pieces.dropLast else pieces

/-- The items behind `from … import`, with or without parentheses around them. -/
def itemList? (cs : List Char) : Option (List String) :=
  match trim cs with
  | '(' :: inner =>
    if inner.getLast? = some ')' then
      (dropTrailingBlank (cutAt ',' inner.dropLast)).mapM item?
    else none
  | bare => (cutAt ',' bare).mapM item?

/-- The rest of a statement that starts with `import`. -/
def readModules? (cs : List Char) : Option Statement :=
  ((cutAt ',' cs).mapM modulePath?).map .modules

/-- The rest of a statement that starts with `from`. -/
def readItems? (cs : List Char) : Option Statement :=
  let path := cs.takeWhile (!isBlank ·)
  match cs.dropWhile (!isBlank ·) with
  | [] => none
  | _ :: rest =>
    if isPath path then
      ((afterKeyword? "import" (trimStart rest)).bind itemList?).map
        (.items (String.ofList path))
    else none

/-- The meaning of a text without blanks around it, if it is an import statement. -/
def Statement.read? (cs : List Char) : Option Statement :=
  match afterKeyword? "import" cs with
  | some rest => readModules? rest
  | none => (afterKeyword? "from" cs).bind readItems?

/-! ### Records -/

/-- The form of an import whose absolute form is given: a dot in front makes it relative. -/
def formOf (absolute : ImportForm) (path : String) : ImportForm :=
  if path.toList.head? = some '.' then .relative else absolute

/-- A record whose kind is not decided yet. -/
def newRecord (absolute : ImportForm) (source text path : String) (items : List String) :
    ImportRecord where
  name := path
  kind := .unknown
  form := formOf absolute path
  source := source
  statement := text
  resolved := none
  items := items

/-- The dependencies that a statement, written as `text` in the module `source`, declares. -/
def Statement.records (source text : String) : Statement → List ImportRecord
  | .modules paths => paths.map fun path => newRecord .module source text path []
  | .items path names => [newRecord .fromImport source text path names]

/-- The dependencies that a text in the module `source` declares: none if it is no import
statement. -/
def parse (statement source : String) : List ImportRecord :=
  let text := trim statement.toList
  match Statement.read? text with
  | some s => s.records source (String.ofList text)
  | none => []

end ModuleDeps.Import
