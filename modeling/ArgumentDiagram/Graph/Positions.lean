import ArgumentDiagram.Graph.Query
import ArgumentDiagram.Json.Printer

/-!
A document that lists where the claims and relations of a graph are.
-/

namespace ArgumentDiagram.Graph

open Json

variable {α : Type} [Scalar α] [WrittenScalar α]

def numberForm (x : α) : Form := .atom (WrittenScalar.document x)

def claimForm (c : Claim α) : Form :=
  let rect := c.rect
  .object [("id", .nat c.id.index), ("text", .array (c.text.map .text)),
    ("x", numberForm rect.x), ("y", numberForm rect.y),
    ("width", numberForm rect.width), ("height", numberForm rect.height),
    ("assumption", .bool c.metadata.assumption),
    ("scope", .ofOption .text c.metadata.scope)]

def entityForm : Entity → Form
  | .claim id => .object [("cls", .text "claim"), ("id", .nat id.index)]
  | .relation id => .object [("cls", .text "relation"), ("id", .nat id.index)]

def pointForm (p : Point α) : Form := .array [numberForm p.x, numberForm p.y]

def relationForm (g : Graph α) (r : Relation) : Form :=
  .object [("id", .nat r.id.index), ("source", .nat r.source.index),
    ("target", entityForm r.target),
    ("kind", .ofOption (fun k => .text k.name) r.kind),
    ("center", .ofOption pointForm (g.center (.relation r.id)))]

/-- How far the claims reach, and then every claim and every relation. -/
def positions (g : Graph α) : Form :=
  let extent := g.extent
  .object [("width", numberForm extent.width), ("height", numberForm extent.height),
    ("claims", .array (g.claims.values.map claimForm)),
    ("relations", .array (g.relations.values.map (relationForm g)))]

end ArgumentDiagram.Graph
