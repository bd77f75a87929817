/-
Reading drawings, character by character.

A text in quotes is scanned from left to right: a backslash takes the next character as it is, and
the first quote that is not taken so ends the text.  A lexer of drawings uses this scanner behind
every opening quote; outside quotes it finds comments, words and single signs.

Names go into a drawing in quotes, with two replacements made one after the other.  The second does
not undo the first: together they put a backslash in front of every backslash and every quote, and
nothing else changes.  So the scanner reads back every name, and the lexer finds in a drawing just
the texts that were put into quotes, whatever characters the names hold.

Main definitions:

* `ModuleDeps.Dot.Scanner`, `ModuleDeps.Dot.Scanner.scan?` — scanning a text in quotes;
* `ModuleDeps.Dot.Token`, `ModuleDeps.Dot.Lexer`, `ModuleDeps.Dot.lex?` — the tokens of a text;
* `ModuleDeps.Dot.Reads` — a text that is read as some tokens, whatever stands around it.

Main results:

* `ModuleDeps.Dot.toList_escape` — what the two replacements do together;
* `ModuleDeps.Dot.scan?_escape` — a name in quotes is scanned up to its closing quote;
* `ModuleDeps.Dot.lex?_toDot` — the tokens of a drawing;
* `ModuleDeps.Dot.names_stay_quoted` — **no name leaves its quotes**.
-/

import Mathlib.Tactic.SplitIfs
import ModuleDeps.Graph.Dot

set_option relaxedAutoImplicit false
set_option autoImplicit false

namespace ModuleDeps.Dot

/-! ### Replacing -/

/-- What stands for a character inside quotes. -/
def escapeChar (c : Char) : List Char :=
  if c = '\\' then ['\\', '\\'] else if c = '"' then ['\\', '"'] else [c]

theorem replace_append (old : Char) (new cs ds : List Char) :
    replace old new (cs ++ ds) = replace old new cs ++ replace old new ds :=
  List.flatMap_append

/-- The second replacement leaves alone what the first has put in. -/
theorem replace_quote_backslash (c : Char) :
    replace '"' ['\\', '"'] (if c = '\\' then ['\\', '\\'] else [c]) = escapeChar c := by
  rw [escapeChar]
  by_cases hc : c = '\\'
  · rw [if_pos hc, if_pos hc]
    rfl
  · rw [if_neg hc, if_neg hc]
    exact List.flatMap_singleton _ _

/-- Together the replacements put a backslash in front of every backslash and every quote. -/
theorem toList_escape (name : String) : (escape name).toList = name.toList.flatMap escapeChar := by
  rw [escape, String.toList_ofList]
  induction name.toList with
  | nil => rfl
  | cons c cs ih =>
      have hcons : replace '\\' ['\\', '\\'] (c :: cs) =
          (if c = '\\' then ['\\', '\\'] else [c]) ++ replace '\\' ['\\', '\\'] cs := rfl
      rw [hcons, replace_append, replace_quote_backslash, ih, List.flatMap_cons]

/-! ### Texts in quotes -/

/-- A scanner of a text in quotes. -/
structure Scanner where
  /-- Has a backslash been read, so that the next character is taken as it is? -/
  literal : Bool
  /-- The text so far, with its last character in front. -/
  read : List Char
  deriving DecidableEq, Repr

/-- What a scanner has found. -/
structure Scanned where
  /-- What stands in front of the closing quote. -/
  written : List Char
  /-- The text that this means. -/
  text : String
  /-- What stands behind the closing quote. -/
  rest : List Char
  deriving DecidableEq, Repr

namespace Scanner

/-- The scanner behind an opening quote. -/
def start : Scanner := ⟨false, []⟩

/-- The scanner behind one more character; none behind the closing quote. -/
def step (s : Scanner) (c : Char) : Option Scanner :=
  if s.literal then some ⟨false, c :: s.read⟩
  else if c = '\\' then some ⟨true, s.read⟩
  else if c = '"' then none
  else some ⟨false, c :: s.read⟩

/-- The text so far. -/
def text (s : Scanner) : String :=
  String.ofList s.read.reverse

/-- Scans up to the closing quote; none if there is no such quote. -/
def scan? (s : Scanner) : List Char → Option Scanned
  | [] => none
  | c :: cs =>
    match s.step c with
    | none => some ⟨[], s.text, cs⟩
    | some next => (next.scan? cs).map fun found => { found with written := c :: found.written }

/-- What is written for a character is read as this character. -/
theorem scan?_escapeChar (read cs : List Char) (c : Char) :
    scan? ⟨false, read⟩ (escapeChar c ++ cs) = (scan? ⟨false, c :: read⟩ cs).map fun found =>
      { found with written := escapeChar c ++ found.written } := by
  rw [escapeChar]
  by_cases hbackslash : c = '\\'
  · subst hbackslash
    exact Option.map_map ..
  · rw [if_neg hbackslash]
    by_cases hquote : c = '"'
    · subst hquote
      exact Option.map_map ..
    · rw [if_neg hquote, List.singleton_append, scan?, step, if_neg Bool.false_ne_true,
        if_neg hbackslash, if_neg hquote]
      rfl

theorem scan?_flatMap_escapeChar (cs read rest : List Char) :
    scan? ⟨false, read⟩ (cs.flatMap escapeChar ++ '"' :: rest) =
      some ⟨cs.flatMap escapeChar, String.ofList (read.reverse ++ cs), rest⟩ := by
  induction cs generalizing read with
  | nil =>
      rw [List.flatMap_nil, List.append_nil]
      rfl
  | cons c cs ih =>
      rw [List.flatMap_cons, List.append_assoc, scan?_escapeChar, ih]
      simp

end Scanner

/-- A name in quotes is scanned up to its closing quote, and gives the name. -/
theorem scan?_escape (name : String) (rest : List Char) :
    Scanner.start.scan? ((escape name).toList ++ '"' :: rest) =
      some ⟨(escape name).toList, name, rest⟩ := by
  rw [toList_escape, Scanner.start, Scanner.scan?_flatMap_escapeChar, List.reverse_nil,
    List.nil_append, String.ofList_toList]

/-- What is written for a name determines it. -/
theorem escape_injective : Function.Injective escape := by
  intro a b h
  have hscan := scan?_escape a []
  rw [h, scan?_escape] at hscan
  exact (congrArg Scanned.text (Option.some.inj hscan)).symm

/-! ### Tokens -/

/-- A piece of the text of a drawing. -/
inductive Token where
  /-- A text in quotes. -/
  | quoted (text : String)
  /-- A comment, which ends with its line. -/
  | comment (text : String)
  /-- Letters and digits. -/
  | word (text : String)
  /-- Any other character that is no blank. -/
  | sign (c : Char)
  deriving DecidableEq, Repr

/-- The text of a token in quotes; other tokens have none. -/
def Token.quotedTexts : Token → List String
  | .quoted text => [text]
  | _ => []

/-- Where a lexer stands; what it has read of a token has its last character in front. -/
inductive Place where
  /-- Between two tokens. -/
  | outside
  /-- In a word. -/
  | word (read : List Char)
  /-- Behind a slash that may begin a comment. -/
  | slash
  /-- In a comment. -/
  | comment (read : List Char)
  /-- In quotes. -/
  | quotes (scanner : Scanner)
  deriving DecidableEq, Repr

/-- A lexer of drawings. -/
structure Lexer where
  place : Place
  /-- The tokens so far, the last one in front. -/
  tokens : List Token
  deriving DecidableEq, Repr

namespace Lexer

/-- The lexer at the start of a text. -/
def start : Lexer := ⟨.outside, []⟩

/-- The lexer behind a token. -/
def emit (l : Lexer) (token : Token) : Lexer := ⟨.outside, token :: l.tokens⟩

/-- One more character between two tokens. -/
def enter (l : Lexer) (c : Char) : Lexer :=
  if c = '"' then { l with place := .quotes .start }
  else if c = '/' then { l with place := .slash }
  else if c.isAlphanum then { l with place := .word [c] }
  else if c.isWhitespace then l
  else l.emit (.sign c)

/-- One more character. -/
def step (l : Lexer) (c : Char) : Lexer :=
  match l.place with
  | .outside => l.enter c
  | .word read =>
    if c.isAlphanum then { l with place := .word (c :: read) }
    else (l.emit (.word (String.ofList read.reverse))).enter c
  | .slash => if c = '/' then { l with place := .comment [] } else (l.emit (.sign '/')).enter c
  | .comment read =>
    if c = '\n' then l.emit (.comment (String.ofList (read.reverse.dropWhile (· == ' '))))
    else { l with place := .comment (c :: read) }
  | .quotes scanner =>
    match scanner.step c with
    | none => l.emit (.quoted scanner.text)
    | some next => { l with place := .quotes next }

/-- The characters of a text, one after the other. -/
def run (l : Lexer) (cs : List Char) : Lexer :=
  cs.foldl step l

/-- The tokens at the end of a text; none if quotes are still open. -/
def finish (l : Lexer) : Option (List Token) :=
  match l.place with
  | .quotes _ => none
  | _ => some (l.step '\n').tokens.reverse

theorem run_cons (l : Lexer) (c : Char) (cs : List Char) : l.run (c :: cs) = (l.step c).run cs :=
  List.foldl_cons

theorem run_append (l : Lexer) (cs ds : List Char) : l.run (cs ++ ds) = (l.run cs).run ds :=
  List.foldl_append

/-- The lexer with further tokens in front of those that it has. -/
def behind (before : List Token) (l : Lexer) : Lexer :=
  { l with tokens := l.tokens ++ before }

theorem enter_behind (before : List Token) (l : Lexer) (c : Char) :
    (l.behind before).enter c = (l.enter c).behind before := by
  simp only [enter, behind, emit]
  split_ifs <;> rfl

/-- What has been read before has no influence on what is read. -/
theorem step_behind (before : List Token) (l : Lexer) (c : Char) :
    (l.behind before).step c = (l.step c).behind before := by
  obtain ⟨place, tokens⟩ := l
  cases place with
  | outside => exact enter_behind before _ c
  | word read =>
      simp only [step, behind]
      split
      · rfl
      · exact enter_behind before (emit ⟨.word read, tokens⟩ _) c
  | slash =>
      simp only [step, behind]
      split
      · rfl
      · exact enter_behind before (emit ⟨.slash, tokens⟩ _) c
  | comment read =>
      simp only [step, behind]
      split
      · rfl
      · rfl
  | quotes scanner =>
      simp only [step, behind]
      cases scanner.step c with
      | none => rfl
      | some next => rfl

theorem run_behind (before : List Token) (l : Lexer) (cs : List Char) :
    (l.behind before).run cs = (l.run cs).behind before := by
  induction cs generalizing l with
  | nil => rfl
  | cons c cs ih =>
      rw [run_cons, step_behind]
      exact ih (l.step c)

/-- Inside quotes the lexer goes where the scanner goes. -/
theorem run_of_scan? {s : Scanner} {cs : List Char} {found : Scanned} (h : s.scan? cs = some found)
    (tokens : List Token) :
    run ⟨.quotes s, tokens⟩ cs = run ⟨.outside, .quoted found.text :: tokens⟩ found.rest := by
  induction cs generalizing s found with
  | nil => cases h
  | cons c cs ih =>
      rw [Scanner.scan?] at h
      cases hstep : s.step c with
      | none =>
          rw [hstep] at h
          cases h
          have hclose : step ⟨.quotes s, tokens⟩ c = ⟨.outside, .quoted s.text :: tokens⟩ := by
            simp only [step, hstep, emit]
          rw [run_cons, hclose]
      | some next =>
          rw [hstep] at h
          obtain ⟨later, hlater, rfl⟩ := Option.map_eq_some_iff.1 h
          have hnext : step ⟨.quotes s, tokens⟩ c = ⟨.quotes next, tokens⟩ := by
            simp only [step, hstep]
          rw [run_cons, hnext, ih hlater]

end Lexer

/-- The tokens of a text, if all its quotes are closed. -/
def lex? (text : String) : Option (List Token) :=
  (Lexer.start.run text.toList).finish

/-! ### Texts that are read as tokens -/

/-- A text is read as some tokens wherever it stands between other tokens. -/
def Reads (cs : List Char) (tokens : List Token) : Prop :=
  ∀ before, Lexer.run ⟨.outside, before⟩ cs = ⟨.outside, tokens.reverse ++ before⟩

/-- It is enough to read the text alone. -/
theorem reads_of_run {cs : List Char} {tokens : List Token}
    (h : Lexer.start.run cs = ⟨.outside, tokens.reverse⟩) : Reads cs tokens := by
  intro before
  have hbehind := Lexer.start.run_behind before cs
  rw [h] at hbehind
  exact hbehind

theorem Reads.append {cs ds : List Char} {ts us : List Token} (h : Reads cs ts)
    (h' : Reads ds us) : Reads (cs ++ ds) (ts ++ us) := by
  intro before
  rw [Lexer.run_append, h, h', List.reverse_append, List.append_assoc]

theorem Reads.flatMap {α : Type} {xs : List α} {text : α → List Char} {tokens : α → List Token}
    (h : ∀ x ∈ xs, Reads (text x) (tokens x)) : Reads (xs.flatMap text) (xs.flatMap tokens) := by
  induction xs with
  | nil => exact reads_of_run rfl
  | cons x xs ih =>
      rw [List.flatMap_cons, List.flatMap_cons]
      exact (h x List.mem_cons_self).append (ih fun y hy => h y (List.mem_cons_of_mem x hy))

theorem lex?_of_reads {text : String} {tokens : List Token} (h : Reads text.toList tokens) :
    lex? text = some tokens := by
  rw [lex?, Lexer.start, h]
  simp [Lexer.finish, Lexer.step, Lexer.enter]

/-- A name in quotes is one token. -/
theorem reads_quoted (name : String) : Reads (quoted name).toList [.quoted name] := by
  intro before
  have htext : (quoted name).toList = '"' :: ((escape name).toList ++ ['"']) := by
    simp [quoted]
  have hopen : Lexer.step ⟨.outside, before⟩ '"' = ⟨.quotes .start, before⟩ := rfl
  rw [htext, Lexer.run_cons, hopen, Lexer.run_of_scan? (scan?_escape name [])]
  rfl

/-- Letters and digits, at least one. -/
def IsWord (text : String) : Prop :=
  text.toList ≠ [] ∧ text.toList.all Char.isAlphanum = true

instance (text : String) : Decidable (IsWord text) :=
  inferInstanceAs (Decidable (text.toList ≠ [] ∧ text.toList.all Char.isAlphanum = true))

theorem run_letters {cs : List Char} (hcs : ∀ c ∈ cs, c.isAlphanum = true) (read : List Char)
    (before : List Token) :
    Lexer.run ⟨.word read, before⟩ cs = ⟨.word (cs.reverse ++ read), before⟩ := by
  induction cs generalizing read with
  | nil => rfl
  | cons c cs ih =>
      have hstep : Lexer.step ⟨.word read, before⟩ c = ⟨.word (c :: read), before⟩ := by
        simp only [Lexer.step, hcs c List.mem_cons_self, if_true]
      rw [Lexer.run_cons, hstep, List.reverse_cons, List.append_assoc]
      exact ih (fun x hx => hcs x (List.mem_cons_of_mem c hx)) (c :: read)

/-- A word is one token in front of anything that is neither a letter nor a digit. -/
theorem Reads.word {w : String} (hw : IsWord w) {cs : List Char} {ts : List Token}
    (hcs : cs.head?.any (fun c => !c.isAlphanum) = true) (h : Reads cs ts) :
    Reads (w.toList ++ cs) (.word w :: ts) := by
  intro before
  obtain ⟨c, rest, rfl, hc⟩ : ∃ c rest, cs = c :: rest ∧ c.isAlphanum = false := by
    cases cs with
    | nil => cases hcs
    | cons c rest => exact ⟨c, rest, rfl, by simpa using hcs⟩
  obtain ⟨hne, hletters⟩ := hw
  -- the first letter opens the word, and `c` closes it
  have hword : Lexer.run ⟨.outside, before⟩ w.toList = ⟨.word w.toList.reverse, before⟩ := by
    cases hw : w.toList with
    | nil => exact absurd hw hne
    | cons first rest =>
        rw [hw, List.all_eq_true] at hletters
        have hfirst := hletters first List.mem_cons_self
        have hquote : first ≠ '"' := by
          rintro rfl
          exact absurd hfirst (by decide)
        have hslash : first ≠ '/' := by
          rintro rfl
          exact absurd hfirst (by decide)
        have hopen : Lexer.step ⟨.outside, before⟩ first = ⟨.word [first], before⟩ := by
          simp only [Lexer.step, Lexer.enter, hquote, hslash, hfirst, if_false, if_true]
        rw [Lexer.run_cons, hopen, List.reverse_cons]
        exact run_letters (fun x hx => hletters x (List.mem_cons_of_mem first hx)) [first] before
  have hclose : Lexer.step ⟨.word w.toList.reverse, before⟩ c =
      Lexer.step ⟨.outside, .word w :: before⟩ c := by
    simp only [Lexer.step, hc, Bool.false_eq_true, if_false, Lexer.emit, List.reverse_reverse,
      String.ofList_toList]
  rw [Lexer.run_append, hword, Lexer.run_cons, hclose, ← Lexer.run_cons]
  refine (h (.word w :: before)).trans ?_
  rw [List.reverse_cons, List.append_assoc, List.singleton_append]

/-! ### Lines -/

/-- The tokens of attributes up to the closing bracket, the first one behind an opening sign and the
others behind commas. -/
def attributeTokens (opening : Char) : List (String × Token) → List Token
  | [] => [.sign ']']
  | (name, value) :: rest =>
    .sign opening :: .word name :: .sign '=' :: value :: attributeTokens ',' rest

/-- The attributes of a node. -/
def nodeStyle (node : Node) : List (String × Token) :=
  [("label", .quoted node.label), ("fillcolor", .word node.fill),
    ("style", .quoted "rounded,filled")]

/-- The tokens of a line that declares a node. -/
def nodeTokens (node : Node) : List Token :=
  .quoted node.id :: attributeTokens '[' (nodeStyle node) ++ [.sign ';']

/-- The tokens of a line that draws an edge. -/
def edgeTokens (style : List (String × Token)) (edge : String × String) : List Token :=
  [.quoted edge.1, .sign '-', .sign '>', .quoted edge.2] ++ attributeTokens '[' style ++ [.sign ';']

/-- How edges between internal modules are drawn. -/
def internalStyle : List (String × Token) := [("color", .word "blue")]

/-- How edges to packages are drawn. -/
def externalStyle : List (String × Token) := [("color", .word "red"), ("style", .word "dashed")]

/-- How the edges of cycles are drawn. -/
def cycleStyle : List (String × Token) :=
  [("color", .word "red"), ("penwidth", .word "3"), ("label", .quoted "CYCLE")]

theorem reads_nodeLine {node : Node} (hfill : IsWord node.fill) :
    Reads node.line.toList (nodeTokens node) := by
  have hindent : Reads "    ".toList [] := reads_of_run (by decide +kernel)
  have hlabel : Reads " [label=".toList [.sign '[', .word "label", .sign '='] :=
    reads_of_run (by decide +kernel)
  have hfillcolor : Reads ", fillcolor=".toList [.sign ',', .word "fillcolor", .sign '='] :=
    reads_of_run (by decide +kernel)
  have hstyle : Reads ", style=\"rounded,filled\"];\n".toList
      [.sign ',', .word "style", .sign '=', .quoted "rounded,filled", .sign ']', .sign ';'] :=
    reads_of_run (by decide +kernel)
  have hline := ((((hindent.append (reads_quoted node.id)).append hlabel).append
    (reads_quoted node.label)).append hfillcolor).append (Reads.word hfill (by decide) hstyle)
  simpa only [Node.line, nodeTokens, nodeStyle, attributeTokens, String.toList_append,
    List.append_assoc, List.cons_append, List.nil_append] using hline

theorem reads_edgeLine {attributes : String} {style : List (String × Token)}
    (hstyle : Reads (" [" ++ attributes ++ "];\n").toList
      (attributeTokens '[' style ++ [.sign ';']))
    (edge : String × String) :
    Reads (Edge.line ⟨edge.1, edge.2, attributes⟩).toList (edgeTokens style edge) := by
  have hindent : Reads "    ".toList [] := reads_of_run (by decide +kernel)
  have harrow : Reads " -> ".toList [.sign '-', .sign '>'] := reads_of_run (by decide +kernel)
  have hline := (((hindent.append (reads_quoted edge.1)).append harrow).append
    (reads_quoted edge.2)).append hstyle
  simp only [Edge.line, edgeTokens, String.toList_append, List.append_assoc] at hline ⊢
  exact hline

/-! ### Drawings -/

/-- The tokens of the drawing of a graph. -/
def tokensOf (g : Graph) : List Token :=
  [.word "digraph", .word "dependencies", .sign '\x7b',
    .word "rankdir", .sign '=', .word "TB", .sign ';', .word "node"] ++
  attributeTokens '[' [("shape", .word "box"), ("style", .word "rounded")] ++ [.sign ';'] ++
  (.word "edge" :: attributeTokens '[' [("arrowhead", .word "vee")] ++
    [.sign ';', .comment "Internal modules"]) ++
  g.drawing.internalNodes.flatMap nodeTokens ++ [.comment "External modules"] ++
  g.drawing.externalNodes.flatMap nodeTokens ++ [.comment "Internal dependencies"] ++
  g.internal.pairs.flatMap (edgeTokens internalStyle) ++
  [.comment "External dependencies (sample)"] ++
  (g.sampledExternals.map fun p => (p.1, externalId p.2)).flatMap (edgeTokens externalStyle) ++
  (if g.cycles.isEmpty then []
    else .comment "Circular dependencies" ::
      (g.cycles.flatMap steps).flatMap (edgeTokens cycleStyle)) ++
  [.sign '\x7d']

theorem isWord_depthColor (depth : Nat) : IsWord (depthColor depth) := by
  rw [depthColor]
  split
  · decide
  · split
    · decide
    · decide

theorem reads_nodeLines {nodes : List Node} (h : ∀ node ∈ nodes, IsWord node.fill) :
    Reads (String.join (nodes.map Node.line)).toList (nodes.flatMap nodeTokens) := by
  rw [String.toList_join, List.flatMap_map]
  exact Reads.flatMap fun node hnode => reads_nodeLine (h node hnode)

theorem reads_internalNodes (g : Graph) :
    Reads (String.join (g.drawing.internalNodes.map Node.line)).toList
      (g.drawing.internalNodes.flatMap nodeTokens) := by
  refine reads_nodeLines fun node hnode => ?_
  obtain ⟨name, -, rfl⟩ := List.mem_map.1 hnode
  exact isWord_depthColor _

theorem reads_externalNodes (g : Graph) :
    Reads (String.join (g.drawing.externalNodes.map Node.line)).toList
      (g.drawing.externalNodes.flatMap nodeTokens) := by
  have hcoral : IsWord "lightcoral" := by decide
  refine reads_nodeLines fun node hnode => ?_
  obtain ⟨name, -, rfl⟩ := List.mem_map.1 hnode
  exact hcoral

theorem reads_edgeLines {attributes : String} {style : List (String × Token)}
    (hstyle : Reads (" [" ++ attributes ++ "];\n").toList
      (attributeTokens '[' style ++ [.sign ';']))
    (edges : List (String × String)) :
    Reads (String.join ((edges.map fun p => Edge.mk p.1 p.2 attributes).map Edge.line)).toList
      (edges.flatMap (edgeTokens style)) := by
  rw [String.toList_join, List.flatMap_map, List.flatMap_map]
  exact Reads.flatMap fun edge _ => reads_edgeLine hstyle edge

theorem reads_internalEdges (g : Graph) :
    Reads (String.join (g.drawing.internalEdges.map Edge.line)).toList
      (g.internal.pairs.flatMap (edgeTokens internalStyle)) :=
  reads_edgeLines (reads_of_run (by decide +kernel)) g.internal.pairs

theorem reads_externalEdges (g : Graph) :
    Reads (String.join (g.drawing.externalEdges.map Edge.line)).toList
      ((g.sampledExternals.map fun p => (p.1, externalId p.2)).flatMap
        (edgeTokens externalStyle)) := by
  have hedges : g.drawing.externalEdges =
      (g.sampledExternals.map fun p => (p.1, externalId p.2)).map
      fun p => ⟨p.1, p.2, "color=red, style=dashed"⟩ := by
    rw [List.map_map]
    rfl
  rw [hedges]
  exact reads_edgeLines (reads_of_run (by decide +kernel)) _

/-- The part of a drawing that shows the cycles, which is left out if there is none. -/
theorem reads_cycles (g : Graph) :
    Reads (if g.drawing.cycleEdges.isEmpty then ""
        else "\n    // Circular dependencies\n" ++
          String.join (g.drawing.cycleEdges.flatten.map Edge.line)).toList
      (if g.cycles.isEmpty then []
        else .comment "Circular dependencies" ::
          (g.cycles.flatMap steps).flatMap (edgeTokens cycleStyle)) := by
  have hheading : Reads "\n    // Circular dependencies\n".toList
      [.comment "Circular dependencies"] := reads_of_run (by decide +kernel)
  have hflatten : g.drawing.cycleEdges.flatten = (g.cycles.flatMap steps).map fun p =>
      ⟨p.1, p.2, "color=red, penwidth=3, label=\"CYCLE\""⟩ := by
    rw [List.map_flatMap, Graph.drawing, List.flatten_eq_flatMap, List.flatMap_map]
    rfl
  have hempty : g.drawing.cycleEdges.isEmpty = g.cycles.isEmpty := List.isEmpty_map
  rw [hempty, hflatten]
  split
  · exact reads_of_run rfl
  · rw [String.toList_append]
    exact hheading.append (reads_edgeLines (reads_of_run (by decide +kernel)) _)

/-- The text of a drawing is read as its tokens. -/
theorem reads_toDot (g : Graph) : Reads g.toDot.toList (tokensOf g) := by
  have hhead : Reads
      "digraph dependencies \x7b\n    rankdir=TB;\n    node [shape=box, style=rounded];\n".toList
      ([.word "digraph", .word "dependencies", .sign '\x7b',
        .word "rankdir", .sign '=', .word "TB", .sign ';', .word "node"] ++
        attributeTokens '[' [("shape", .word "box"), ("style", .word "rounded")] ++ [.sign ';']) :=
    reads_of_run (by decide +kernel)
  have hinternal : Reads "    edge [arrowhead=vee];\n\n    // Internal modules\n".toList
      (.word "edge" :: attributeTokens '[' [("arrowhead", .word "vee")] ++
        [.sign ';', .comment "Internal modules"]) := reads_of_run (by decide +kernel)
  have hexternal : Reads "\n    // External modules\n".toList [.comment "External modules"] :=
    reads_of_run (by decide +kernel)
  have hinternalEdges : Reads "\n    // Internal dependencies\n".toList
      [.comment "Internal dependencies"] := reads_of_run (by decide +kernel)
  have hsample : Reads "\n    // External dependencies (sample)\n".toList
      [.comment "External dependencies (sample)"] := reads_of_run (by decide +kernel)
  have hclose : Reads "\x7d\n".toList [.sign '\x7d'] := reads_of_run (by decide +kernel)
  have hparts := (((((((((hhead.append hinternal).append (reads_internalNodes g)).append
    hexternal).append (reads_externalNodes g)).append hinternalEdges).append
    (reads_internalEdges g)).append hsample).append (reads_externalEdges g)).append
    (reads_cycles g)).append hclose
  simp only [← String.toList_append] at hparts
  exact hparts

theorem lex?_toDot (g : Graph) : lex? g.toDot = some (tokensOf g) :=
  lex?_of_reads (reads_toDot g)

/-! ### Texts in quotes in a drawing -/

/-- The texts in quotes in a text, in order, if all quotes are closed. -/
def quotedTexts? (text : String) : Option (List String) :=
  (lex? text).map (·.flatMap Token.quotedTexts)

theorem quotedTexts_nodes (nodes : List Node) :
    (nodes.flatMap nodeTokens).flatMap Token.quotedTexts =
      nodes.flatMap fun node => [node.id, node.label, "rounded,filled"] :=
  List.flatMap_assoc

theorem quotedTexts_edges (style : List (String × Token)) (edges : List (String × String)) :
    (edges.flatMap (edgeTokens style)).flatMap Token.quotedTexts =
      edges.flatMap fun p =>
        p.1 :: p.2 :: (attributeTokens '[' style).flatMap Token.quotedTexts := by
  rw [List.flatMap_assoc]
  simp [edgeTokens, Token.quotedTexts]

theorem quotedTexts_cycles (cycles : List (List String)) :
    (if cycles.isEmpty then []
      else Token.comment "Circular dependencies" ::
        (cycles.flatMap steps).flatMap (edgeTokens cycleStyle)).flatMap Token.quotedTexts =
      (cycles.flatMap steps).flatMap fun p => [p.1, p.2, "CYCLE"] := by
  cases cycles with
  | nil => rfl
  | cons cycle cycles =>
      rw [List.isEmpty_cons, if_neg Bool.false_ne_true, List.flatMap_cons, quotedTexts_edges]
      rfl

/-- **No name leaves its quotes.**  Behind the opening quote of any name, whatever follows the
closing one, the scanner reads just what has been written for the name, stops at the closing quote
and has the name; so what is written for a name determines it.  And from its first character on, the
drawing of any graph has these texts in quotes: the identifier and the label of every declared node,
the two ends of every edge, and the fixed texts among the attributes. -/
theorem names_stay_quoted :
    (∀ (name : String) (rest : List Char),
      (quoted name).toList ++ rest = '"' :: ((escape name).toList ++ '"' :: rest) ∧
      Scanner.start.scan? ((escape name).toList ++ '"' :: rest) =
        some ⟨(escape name).toList, name, rest⟩) ∧
    Function.Injective escape ∧
    ∀ g : Graph, quotedTexts? g.toDot = some (
      (g.internalModules.names.flatMap fun name => [name, Dotted.leaf name, "rounded,filled"]) ++
      (g.drawnExternals.flatMap fun name =>
        ["ext:" ++ name, Dotted.leaf name, "rounded,filled"]) ++
      (g.internal.pairs.flatMap fun p => [p.1, p.2]) ++
      (g.sampledExternals.flatMap fun p => [p.1, "ext:" ++ p.2]) ++
      (g.cycles.flatMap steps).flatMap fun p => [p.1, p.2, "CYCLE"]) := by
  refine ⟨fun name rest => ⟨?_, scan?_escape name rest⟩, escape_injective, fun g => ?_⟩
  · simp [quoted]
  · rw [quotedTexts?, lex?_toDot, Option.map_some, tokensOf]
    simp only [List.flatMap_append, quotedTexts_nodes, quotedTexts_edges, quotedTexts_cycles]
    simp [Token.quotedTexts, attributeTokens, internalStyle, externalStyle, Graph.drawing,
      externalId, List.flatMap_map]

end ModuleDeps.Dot
