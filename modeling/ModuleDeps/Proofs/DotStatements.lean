/-
Reading drawings, statement by statement.

Behind its opening words a drawing is a sequence of statements, each with a semicolon at its end; a
comment between two statements is a heading for those that follow.  A statement declares a node,
draws an edge, or fixes how the drawing looks.  The reader accepts nothing else, and in particular
no attributes that are not in order and no text behind the closing brace.

The drawing of a graph is read as the sheet that is written here, whatever names the graph has.  The
theory of what a drawing shows is about this sheet.

Main definitions:

* `ModuleDeps.Dot.Statement`, `ModuleDeps.Dot.Sheet` — what a text says, part by part;
* `ModuleDeps.Dot.read?` — the sheet that a text holds, if it is a drawing;
* `ModuleDeps.Dot.sheetOf` — the sheet of a graph;
* `ModuleDeps.Dot.Sheet.part`, `ModuleDeps.Dot.Sheet.statements` — the statements below a heading,
  and all of them.

Main results:

* `ModuleDeps.Dot.body?_statements` — written statements are read back;
* `ModuleDeps.Dot.read?_toDot` — **a drawing is read as the sheet of its graph**.
-/

import ModuleDeps.Proofs.DotReading

set_option relaxedAutoImplicit false
set_option autoImplicit false

namespace ModuleDeps.Dot

/-! ### Statements -/

/-- A statement of a drawing. -/
inductive Statement where
  /-- A node is declared. -/
  | node (id : String) (attributes : List (String × Token))
  /-- An edge is drawn. -/
  | edge (source target : String) (attributes : List (String × Token))
  /-- Something holds for the whole drawing. -/
  | setting (name : String) (value : Token)
  /-- Something holds for all nodes, or for all edges. -/
  | defaults (kind : String) (attributes : List (String × Token))
  deriving DecidableEq, Repr

/-- Is the token a value? -/
def Token.isValue : Token → Bool
  | .quoted _ => true
  | .word _ => true
  | _ => false

/-- The attributes up to a closing bracket, the first one behind an opening sign and the others
behind commas. -/
def attributes? (opening : Char) : List Token → Option (List (String × Token))
  | [.sign c] => if c = ']' ∧ opening = ',' then some [] else none
  | .sign c :: .word name :: .sign e :: value :: rest =>
    if c = opening ∧ e = '=' ∧ value.isValue then (attributes? ',' rest).map ((name, value) :: ·)
    else none
  | _ => none

/-- The statement that some tokens make. -/
def statement? : List Token → Option Statement
  | .quoted source :: .sign '-' :: .sign '>' :: .quoted target :: rest =>
    (attributes? '[' rest).map (.edge source target)
  | .quoted id :: rest => (attributes? '[' rest).map (.node id)
  | [.word name, .sign '=', value] => if value.isValue then some (.setting name value) else none
  | .word kind :: rest => (attributes? '[' rest).map (.defaults kind)
  | _ => none

/-- The tokens of a statement, without its semicolon. -/
def Statement.tokens : Statement → List Token
  | .node id attributes => .quoted id :: attributeTokens '[' attributes
  | .edge source target attributes =>
    .quoted source :: .sign '-' :: .sign '>' :: .quoted target :: attributeTokens '[' attributes
  | .setting name value => [.word name, .sign '=', value]
  | .defaults kind attributes => .word kind :: attributeTokens '[' attributes

/-- The attributes of a statement; what is said of the whole drawing counts as one. -/
def Statement.attributes : Statement → List (String × Token)
  | .node _ attributes => attributes
  | .edge _ _ attributes => attributes
  | .setting name value => [(name, value)]
  | .defaults _ attributes => attributes

/-- Attributes can be written: there is one, and all have values. -/
def IsStyle (attributes : List (String × Token)) : Prop :=
  attributes ≠ [] ∧ ∀ a ∈ attributes, a.2.isValue = true

instance (attributes : List (String × Token)) : Decidable (IsStyle attributes) :=
  inferInstanceAs (Decidable (attributes ≠ [] ∧ ∀ a ∈ attributes, a.2.isValue = true))

theorem attributes?_comma {attributes : List (String × Token)}
    (h : ∀ a ∈ attributes, a.2.isValue = true) :
    attributes? ',' (attributeTokens ',' attributes) = some attributes := by
  induction attributes with
  | nil => rfl
  | cons a attributes ih =>
      obtain ⟨ha, hrest⟩ := List.forall_mem_cons.1 h
      rw [attributeTokens, attributes?, if_pos ⟨rfl, rfl, ha⟩, ih hrest]
      rfl

/-- Written attributes are read back. -/
theorem attributes?_attributeTokens {attributes : List (String × Token)} (h : IsStyle attributes) :
    attributes? '[' (attributeTokens '[' attributes) = some attributes := by
  obtain ⟨hne, hvalues⟩ := h
  cases attributes with
  | nil => exact absurd rfl hne
  | cons a attributes =>
      obtain ⟨ha, hrest⟩ := List.forall_mem_cons.1 hvalues
      rw [attributeTokens, attributes?, if_pos ⟨rfl, rfl, ha⟩, attributes?_comma hrest]
      rfl

/-- A written statement is read back. -/
theorem statement?_tokens {s : Statement} (h : IsStyle s.attributes) :
    statement? s.tokens = some s := by
  have hread := attributes?_attributeTokens h
  cases s with
  | node id attributes =>
      cases attributes with
      | nil => exact absurd rfl h.1
      | cons a attributes =>
          -- the bracket behind the identifier tells a node from an edge
          rw [Statement.tokens, attributeTokens, statement?, ← attributeTokens]
          · exact congrArg (Option.map (Statement.node id)) hread
          · simp
  | edge source target attributes =>
      exact congrArg (Option.map (Statement.edge source target)) hread
  | setting name value =>
      have hvalue : value.isValue = true := h.2 _ List.mem_cons_self
      rw [Statement.tokens, statement?, if_pos hvalue]
  | defaults kind attributes =>
      cases attributes with
      | nil => exact absurd rfl h.1
      | cons a attributes =>
          rw [Statement.tokens, attributeTokens, statement?, ← attributeTokens]
          · exact congrArg (Option.map (Statement.defaults kind)) hread
          · simp

/-! ### Sheets -/

/-- What a drawing says. -/
structure Sheet where
  /-- The statements in front of the first heading. -/
  preamble : List Statement
  /-- The headings, each with the statements below it. -/
  parts : List (String × List Statement)
  deriving DecidableEq, Repr

namespace Sheet

/-- The sheet with nothing on it. -/
def empty : Sheet := ⟨[], []⟩

/-- The sheet with further statements in front. -/
def behind (statements : List Statement) (sheet : Sheet) : Sheet :=
  { sheet with preamble := statements ++ sheet.preamble }

/-- The sheet with a heading in front. -/
def under (title : String) (sheet : Sheet) : Sheet :=
  ⟨[], (title, sheet.preamble) :: sheet.parts⟩

/-- The statements below a heading. -/
def part (sheet : Sheet) (title : String) : List Statement :=
  ((sheet.parts.find? (·.1 == title)).map Prod.snd).getD []

/-- All statements. -/
def statements (sheet : Sheet) : List Statement :=
  sheet.preamble ++ sheet.parts.flatMap Prod.snd

end Sheet

/-- Reads statements and headings up to the closing brace, behind some tokens of the first
statement; the last of these is in front. -/
def body? (current : List Token) : List Token → Option Sheet
  | [] => none
  | .comment title :: rest =>
    if current = [] then (body? [] rest).map (Sheet.under title) else none
  | .sign c :: rest =>
    if c = ';' then
      (statement? current.reverse).bind fun s => (body? [] rest).map (Sheet.behind [s])
    else if c = '\x7d' then
      if current = [] ∧ rest = [] then some .empty else none
    else body? (.sign c :: current) rest
  | .quoted text :: rest => body? (.quoted text :: current) rest
  | .word text :: rest => body? (.word text :: current) rest

/-- The sheet that a text holds, if it is a drawing. -/
def read? (text : String) : Option Sheet :=
  match lex? text with
  | some (.word kind :: .word _ :: .sign c :: rest) =>
    if kind = "digraph" ∧ c = '\x7b' then body? [] rest else none
  | _ => none

/-- May the token stand inside a statement? -/
def Token.isInner : Token → Bool
  | .comment _ => false
  | .sign c => c != ';' && c != '\x7d'
  | _ => true

theorem body?_inner {t : Token} (h : t.isInner = true) (current rest : List Token) :
    body? current (t :: rest) = body? (t :: current) rest := by
  cases t with
  | comment text => cases h
  | sign c =>
      simp only [Token.isInner, Bool.and_eq_true, bne_iff_ne] at h
      rw [body?, if_neg h.1, if_neg h.2]
  | quoted text => rw [body?]
  | word text => rw [body?]

theorem body?_inners {ts : List Token} (h : ∀ t ∈ ts, t.isInner = true)
    (current rest : List Token) :
    body? current (ts ++ rest) = body? (ts.reverse ++ current) rest := by
  induction ts generalizing current with
  | nil => rfl
  | cons t ts ih =>
      obtain ⟨ht, hts⟩ := List.forall_mem_cons.1 h
      rw [List.cons_append, body?_inner ht, ih hts, List.reverse_cons, List.append_assoc]
      rfl

theorem isInner_of_isValue {t : Token} (h : t.isValue = true) : t.isInner = true := by
  cases t with
  | quoted text => rfl
  | word text => rfl
  | comment text => cases h
  | sign c => cases h

theorem isInner_attributeTokens {opening : Char} (hopening : (Token.sign opening).isInner = true)
    {attributes : List (String × Token)} (h : ∀ a ∈ attributes, a.2.isValue = true) :
    ∀ t ∈ attributeTokens opening attributes, t.isInner = true := by
  induction attributes generalizing opening with
  | nil => exact List.forall_mem_singleton.2 rfl
  | cons a attributes ih =>
      obtain ⟨ha, hrest⟩ := List.forall_mem_cons.1 h
      simp only [attributeTokens, List.forall_mem_cons]
      exact ⟨hopening, rfl, rfl, isInner_of_isValue ha, ih rfl hrest⟩

theorem isInner_tokens {s : Statement} (h : ∀ a ∈ s.attributes, a.2.isValue = true) :
    ∀ t ∈ s.tokens, t.isInner = true := by
  cases s with
  | node id attributes =>
      exact List.forall_mem_cons.2 ⟨rfl, isInner_attributeTokens rfl h⟩
  | edge source target attributes =>
      simp only [Statement.tokens, List.forall_mem_cons]
      exact ⟨rfl, rfl, rfl, rfl, isInner_attributeTokens rfl h⟩
  | setting name value =>
      simp only [Statement.tokens, List.forall_mem_cons]
      exact ⟨rfl, rfl, isInner_of_isValue (h _ List.mem_cons_self), by simp⟩
  | defaults kind attributes =>
      exact List.forall_mem_cons.2 ⟨rfl, isInner_attributeTokens rfl h⟩

/-- The tokens of some statements, each with its semicolon. -/
def statementTokens (ss : List Statement) : List Token :=
  ss.flatMap fun s => s.tokens ++ [.sign ';']

/-- Written statements are read back. -/
theorem body?_statements {ss : List Statement} (h : ∀ s ∈ ss, IsStyle s.attributes)
    (rest : List Token) :
    body? [] (statementTokens ss ++ rest) =
      (body? [] rest).map (Sheet.behind ss) := by
  induction ss with
  | nil => exact Option.map_id'.symm
  | cons s ss ih =>
      obtain ⟨hs, hss⟩ := List.forall_mem_cons.1 h
      rw [statementTokens, List.flatMap_cons, List.append_assoc, List.append_assoc,
        body?_inners (isInner_tokens hs.2), List.append_nil, List.singleton_append, body?,
        if_pos rfl, List.reverse_reverse, statement?_tokens hs, Option.bind_some,
        ← statementTokens, ih hss, Option.map_map]
      rfl

theorem body?_heading (title : String) (rest : List Token) :
    body? [] ([.comment title] ++ rest) = (body? [] rest).map (Sheet.under title) := by
  rw [List.singleton_append, body?, if_pos rfl]

/-! ### The sheet of a graph -/

/-- The statement that declares a node. -/
def Node.statement (node : Node) : Statement :=
  .node node.id (nodeStyle node)

/-- The statement that draws an edge in some style. -/
def edgeIn (style : List (String × Token)) (edge : String × String) : Statement :=
  .edge edge.1 edge.2 style

/-- The statements in front of the parts of a drawing. -/
def preamble : List Statement :=
  [.setting "rankdir" (.word "TB"),
    .defaults "node" [("shape", .word "box"), ("style", .word "rounded")],
    .defaults "edge" [("arrowhead", .word "vee")]]

/-- The edges to packages as they are drawn, between identifiers. -/
def externalEnds (g : Graph) : List (String × String) :=
  g.sampledExternals.map fun p => (p.1, externalId p.2)

/-- The sheet of a graph. -/
def sheetOf (g : Graph) : Sheet where
  preamble := preamble
  parts :=
    [("Internal modules", g.drawing.internalNodes.map Node.statement),
      ("External modules", g.drawing.externalNodes.map Node.statement),
      ("Internal dependencies", g.internal.pairs.map (edgeIn internalStyle)),
      ("External dependencies (sample)", (externalEnds g).map (edgeIn externalStyle))] ++
    if g.cycles.isEmpty then []
    else [("Circular dependencies", (g.cycles.flatMap steps).map (edgeIn cycleStyle))]

/-- All that a drawing says; there are no edges of cycles where there is no heading for them. -/
theorem statements_sheetOf (g : Graph) :
    (sheetOf g).statements =
      preamble ++ g.drawing.internalNodes.map Node.statement ++
      g.drawing.externalNodes.map Node.statement ++ g.internal.pairs.map (edgeIn internalStyle) ++
      (externalEnds g).map (edgeIn externalStyle) ++
      (g.cycles.flatMap steps).map (edgeIn cycleStyle) := by
  rw [Sheet.statements, sheetOf]
  cases g.cycles with
  | nil => simp
  | cons cycle cycles => simp

theorem part_internalModules (g : Graph) :
    (sheetOf g).part "Internal modules" = g.drawing.internalNodes.map Node.statement := rfl

theorem part_externalModules (g : Graph) :
    (sheetOf g).part "External modules" = g.drawing.externalNodes.map Node.statement := rfl

theorem statementTokens_nodes (nodes : List Node) :
    statementTokens (nodes.map Node.statement) = nodes.flatMap nodeTokens :=
  List.flatMap_map ..

theorem statementTokens_edges (style : List (String × Token)) (edges : List (String × String)) :
    statementTokens (edges.map (edgeIn style)) = edges.flatMap (edgeTokens style) :=
  List.flatMap_map ..

theorem body?_nodes (nodes : List Node) (rest : List Token) :
    body? [] (nodes.flatMap nodeTokens ++ rest) =
      (body? [] rest).map (Sheet.behind (nodes.map Node.statement)) := by
  rw [← statementTokens_nodes]
  refine body?_statements (fun s hs => ?_) rest
  obtain ⟨node, -, rfl⟩ := List.mem_map.1 hs
  exact ⟨List.cons_ne_nil _ _,
    by simp [Node.statement, Statement.attributes, nodeStyle, Token.isValue]⟩

theorem body?_edges {style : List (String × Token)} (hstyle : IsStyle style)
    (edges : List (String × String)) (rest : List Token) :
    body? [] (edges.flatMap (edgeTokens style) ++ rest) =
      (body? [] rest).map (Sheet.behind (edges.map (edgeIn style))) := by
  rw [← statementTokens_edges]
  refine body?_statements (fun s hs => ?_) rest
  obtain ⟨edge, -, rfl⟩ := List.mem_map.1 hs
  exact hstyle

theorem body?_cycles (g : Graph) :
    body? [] ((if g.cycles.isEmpty then []
        else .comment "Circular dependencies" ::
          (g.cycles.flatMap steps).flatMap (edgeTokens cycleStyle)) ++ [.sign '\x7d']) =
      some ⟨[], if g.cycles.isEmpty then []
        else [("Circular dependencies", (g.cycles.flatMap steps).map (edgeIn cycleStyle))]⟩ := by
  have hend : body? [] [.sign '\x7d'] = some .empty := rfl
  split
  · exact hend
  · have hstyle : IsStyle cycleStyle := by decide
    rw [List.cons_append, body?, if_pos rfl, body?_edges hstyle, hend]
    simp [Sheet.behind, Sheet.under, Sheet.empty]

/-- **A drawing is read as the sheet of its graph**, whatever names the graph has. -/
theorem read?_toDot (g : Graph) : read? g.toDot = some (sheetOf g) := by
  have htokens : tokensOf g = .word "digraph" :: .word "dependencies" :: .sign '\x7b' ::
      (statementTokens preamble ++ ([.comment "Internal modules"] ++
      (g.drawing.internalNodes.flatMap nodeTokens ++ ([.comment "External modules"] ++
      (g.drawing.externalNodes.flatMap nodeTokens ++ ([.comment "Internal dependencies"] ++
      (g.internal.pairs.flatMap (edgeTokens internalStyle) ++
      ([.comment "External dependencies (sample)"] ++
      ((externalEnds g).flatMap (edgeTokens externalStyle) ++
      ((if g.cycles.isEmpty then []
        else .comment "Circular dependencies" ::
          (g.cycles.flatMap steps).flatMap (edgeTokens cycleStyle)) ++
        [.sign '\x7d'])))))))))) := by
    simp [tokensOf, statementTokens, preamble, Statement.tokens, attributeTokens, externalEnds]
  have hpreamble : ∀ s ∈ preamble, IsStyle s.attributes := by decide
  have hinternal : IsStyle internalStyle := by decide
  have hexternal : IsStyle externalStyle := by decide
  rw [read?, lex?_toDot, htokens]
  simp only [body?_statements hpreamble, body?_heading, body?_nodes, body?_edges hinternal,
    body?_edges hexternal, body?_cycles, Option.map_some, and_self, if_true]
  simp [Sheet.behind, Sheet.under, sheetOf]

end ModuleDeps.Dot
