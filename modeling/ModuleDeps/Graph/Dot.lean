/-
Drawings of a graph in the DOT language.

A drawing declares the internal modules, coloured by their depth, and the first twenty packages from
elsewhere, and then draws all internal edges, a sample of the external ones, and the cycles.  The
identifiers of packages start with `ext:`.

Main definitions:

* `ModuleDeps.Dot.escape` — a name inside quotes;
* `ModuleDeps.Dot.Node`, `ModuleDeps.Dot.Edge`, `ModuleDeps.Dot.Drawing` — what is drawn;
* `ModuleDeps.Graph.drawing` — the drawing of a graph;
* `ModuleDeps.Graph.toDot` — its text.
-/

import ModuleDeps.Dotted
import ModuleDeps.Graph.Basic

set_option relaxedAutoImplicit false
set_option autoImplicit false

namespace ModuleDeps

namespace Dot

/-! ### Texts -/

/-- A text in which a character is replaced wherever it stands. -/
def replace (old : Char) (new cs : List Char) : List Char :=
  cs.flatMap fun c => if c = old then new else [c]

/-- A name as it stands inside quotes: every backslash is doubled, and then every quote gets a
backslash in front. -/
def escape (name : String) : String :=
  String.ofList (replace '"' ['\\', '"'] (replace '\\' ['\\', '\\'] name.toList))

/-- A name in quotes. -/
def quoted (name : String) : String :=
  "\"" ++ escape name ++ "\""

/-- A declared node. -/
structure Node where
  /-- The identifier. -/
  id : String
  /-- The label. -/
  label : String
  /-- The colour. -/
  fill : String
  deriving DecidableEq, Repr

/-- A drawn edge. -/
structure Edge where
  /-- The identifier at which the edge starts. -/
  source : String
  /-- The identifier at which the edge ends. -/
  target : String
  /-- How the edge is drawn. -/
  attributes : String
  deriving DecidableEq, Repr

/-- The line that declares a node. -/
def Node.line (node : Node) : String :=
  "    " ++ quoted node.id ++ " [label=" ++ quoted node.label ++ ", fillcolor=" ++ node.fill ++
    ", style=\"rounded,filled\"];\n"

/-- The line that draws an edge. -/
def Edge.line (edge : Edge) : String :=
  "    " ++ quoted edge.source ++ " -> " ++ quoted edge.target ++ " [" ++ edge.attributes ++ "];\n"

/-- What a drawing shows, part by part. -/
structure Drawing where
  /-- The internal modules. -/
  internalNodes : List Node
  /-- The packages from elsewhere. -/
  externalNodes : List Node
  /-- The edges between internal modules. -/
  internalEdges : List Edge
  /-- A sample of the edges to packages. -/
  externalEdges : List Edge
  /-- The edges of each cycle. -/
  cycleEdges : List (List Edge)
  deriving DecidableEq, Repr

/-- The text of a drawing. -/
def Drawing.text (d : Drawing) : String :=
  "digraph dependencies \x7b\n    rankdir=TB;\n    node [shape=box, style=rounded];\n" ++
    "    edge [arrowhead=vee];\n\n    // Internal modules\n" ++
    String.join (d.internalNodes.map Node.line) ++
    "\n    // External modules\n" ++ String.join (d.externalNodes.map Node.line) ++
    "\n    // Internal dependencies\n" ++ String.join (d.internalEdges.map Edge.line) ++
    "\n    // External dependencies (sample)\n" ++ String.join (d.externalEdges.map Edge.line) ++
    (if d.cycleEdges.isEmpty then ""
      else "\n    // Circular dependencies\n" ++
        String.join (d.cycleEdges.flatten.map Edge.line)) ++
    "\x7d\n"

/-! ### Drawings -/

/-- The greatest number of packages in a drawing. -/
def maxExternalNodes : Nat := 20

/-- The greatest number of edges to packages in a drawing. -/
def maxExternalEdges : Nat := 11

/-- The greatest number of edges from one module to packages in a drawing. -/
def maxEdgesPerModule : Nat := 3

/-- The colour of a module at the given depth. -/
def depthColor (depth : Nat) : String :=
  if depth = 0 then "lightblue" else if depth ≤ 2 then "lightgreen" else "lightyellow"

/-- The identifier of a package. -/
def externalId (name : String) : String :=
  "ext:" ++ name

/-- The edges of one module to packages, drawn one by one behind those that are drawn already.  The
drawing stops, as the second component tells, at an edge for which there is no room. -/
def drawEdges (source : String) :
    List String → List (String × String) → List (String × String) × Bool
  | [], drawn => (drawn, true)
  | target :: targets, drawn =>
    if maxExternalEdges ≤ drawn.length then (drawn, false)
    else drawEdges source targets (drawn ++ [(source, target)])

/-- The first edges of each module to the packages of a class, drawn module by module until the
drawing stops. -/
def drawModules (isDeclared : String → Bool) :
    List (String × List String) → List (String × String) → List (String × String)
  | [], drawn => drawn
  | (source, targets) :: modules, drawn =>
    match drawEdges source ((targets.filter isDeclared).take maxEdgesPerModule) drawn with
    | (drawn, true) => drawModules isDeclared modules drawn
    | (drawn, false) => drawn

/-- The neighbouring pairs of a list. -/
def steps : List String → List (String × String)
  | a :: b :: rest => (a, b) :: steps (b :: rest)
  | _ => []

end Dot

namespace Graph

open Dot

/-- The internal modules of a graph: those that import and those that are imported. -/
def internalModules (g : Graph) : NameSet :=
  .ofList (g.internal.keys ++ g.internalNodes.names)

/-- The packages that are drawn. -/
def drawnExternals (g : Graph) : List String :=
  g.externalNodes.names.take maxExternalNodes

/-- The edges to packages that are drawn: the first ones of each module, up to a limit. -/
def sampledExternals (g : Graph) : List (String × String) :=
  drawModules g.drawnExternals.contains g.external.entries []

/-- The drawing of a graph. -/
def drawing (g : Graph) : Drawing where
  internalNodes := g.internalModules.names.map fun name =>
    ⟨name, Dotted.leaf name, depthColor ((g.depth.get? name).getD 0)⟩
  externalNodes := g.drawnExternals.map fun name =>
    ⟨externalId name, Dotted.leaf name, "lightcoral"⟩
  internalEdges := g.internal.pairs.map fun p => ⟨p.1, p.2, "color=blue"⟩
  externalEdges := g.sampledExternals.map fun p =>
    ⟨p.1, externalId p.2, "color=red, style=dashed"⟩
  cycleEdges := g.cycles.map fun cycle => (steps cycle).map fun p =>
    ⟨p.1, p.2, "color=red, penwidth=3, label=\"CYCLE\""⟩

/-- The text of the drawing of a graph. -/
def toDot (g : Graph) : String :=
  g.drawing.text

end Graph

end ModuleDeps
