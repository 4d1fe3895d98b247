import ArgumentDiagram.Graph.Basic
import ArgumentDiagram.Script.Basic

/-!
Loading scripts into graphs, statement by statement. A variable stands for what it was last given to.
-/

namespace ArgumentDiagram

abbrev Variables := Table String Entity

namespace Variables

def find (vars : Variables) (name : String) : Except GraphError Entity :=
  match vars.get? name with
  | some entity => .ok entity
  | none => .error (.unknownVariable name)

/-- What a source stands for, which has to be a claim. -/
def source (vars : Variables) (name : String) : Except GraphError ClaimId := do
  match ← vars.find name with
  | .claim id => .ok id
  | .relation _ => .error (.relationAsSource name)

end Variables

namespace Script

/-- The note that holds the variable something was given to. -/
def variableNote : String := "variable"

def metadataOf (s : Statement) : Metadata :=
  { Metadata.ofAssumption s.assumption with
    extra := Table.empty.insert variableNote (.text s.name) }

variable {α : Type} [Scalar α]

/-- Adds what a statement says and gives it to its variable. -/
def bind (s : Statement) (g : Graph α) (vars : Variables) : Except GraphError (Graph α × Variables) :=
  match s.kind with
  | .claim text =>
    let (id, g) := g.addClaim text (metadataOf s)
    .ok (g, vars.insert s.name (.claim id))
  | .relation sources kind target => do
    let sources ← sources.mapM vars.source
    let target ← vars.find target
    let (added, g) ← g.addRelation sources target (some kind) (metadataOf s)
    match added with
    | some id => pure (g, vars.insert s.name (.relation id))
    | none => pure (g, vars)

def loadFrom : Script → Graph α → Variables → Except GraphError (Graph α × Variables)
  | [], g, vars => .ok (g, vars)
  | s :: rest, g, vars =>
    match bind s g vars with
    | .ok (g, vars) => loadFrom rest g vars
    | .error cause => .error (.script s.line cause)

/-- Adds a script to a graph, or nothing at all. -/
def load (script : Script) (g : Graph α) : Except GraphError (Variables × Graph α) := do
  let (g, vars) ← loadFrom script g .empty
  pure (vars, g)

end Script

end ArgumentDiagram
