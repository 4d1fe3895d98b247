import ArgumentDiagram.Graph.Basic
import ArgumentDiagram.Payload.Basic

/-!
Loading payloads into graphs. Relations into claims come first. A relation into a relation waits until that
one is there, round after round; a round in which everything waits means that nothing ever will come.
-/

namespace ArgumentDiagram

/-- The handles that the names of a payload were loaded as. -/
structure Loaded where
  claims : Table PayloadId ClaimId
  relations : Table PayloadId RelationId

namespace Loaded

def none : Loaded := ⟨.empty, .empty⟩

def unknown (ref : Reference) : GraphError := .unknownReference ref.cls ref.id

/-- Only claims can be sources. -/
def source (l : Loaded) (ref : Reference) : Except GraphError ClaimId :=
  match ref.cls with
  | "claim" => (l.claims.get? ref.id).elim (.error (unknown ref)) .ok
  | cls => .error (.unknownClass cls)

def target (l : Loaded) (ref : Reference) : Except GraphError Entity :=
  match ref.cls with
  | "claim" => (l.claims.get? ref.id).elim (.error (unknown ref)) (.ok ∘ .claim)
  | "relation" => (l.relations.get? ref.id).elim (.error (unknown ref)) (.ok ∘ .relation)
  | cls => .error (.unknownClass cls)

end Loaded

namespace Payload

variable {α : Type} [Scalar α]

/-- A graph being loaded. -/
structure Progress (α : Type) where
  graph : Graph α
  loaded : Loaded

def addClaim (p : Progress α) (entry : ClaimEntry) : Progress α :=
  let (id, graph) := p.graph.addClaim entry.text
    { Metadata.ofAssumption entry.assumption with scope := entry.scope }
  ⟨graph, { p.loaded with claims := p.loaded.claims.insert entry.id id }⟩

/-- The sources of an entry in the order of their names. -/
def sortedSources (entry : RelationEntry) : List Reference :=
  entry.sources.mergeSort fun a b => !KeyOrder.before b.id a.id

/-- Adds a relation all of whose ends can be told by now. An entry without sources adds nothing. -/
def addRelation (p : Progress α) (entry : RelationEntry) : Except GraphError (Progress α) := do
  let sources ← (sortedSources entry).mapM p.loaded.source
  let target ← p.loaded.target entry.target
  if p.loaded.relations.contains entry.id then .error (.duplicateRelation entry.id)
  let (added, graph) ← p.graph.addRelation sources target (entry.kind.bind RelationKind.named?)
    (.ofAssumption entry.assumption)
  match added with
  | some id => pure ⟨graph, { p.loaded with relations := p.loaded.relations.insert entry.id id }⟩
  | none => pure ⟨graph, p.loaded⟩

/-- Whether an entry has to wait: its target is a relation that is not there, but among those to come. -/
def isBlocked (loaded : Loaded) (waiting : List PayloadId) (entry : RelationEntry) : Bool :=
  entry.target.cls = "relation" && !loaded.relations.contains entry.target.id
    && waiting.contains entry.target.id

/-- One round: adds what need not wait, and gives back what has to. -/
def round (waiting : List PayloadId) :
    List RelationEntry → Progress α → Except GraphError (List RelationEntry × Progress α)
  | [], p => .ok ([], p)
  | entry :: rest, p =>
    if isBlocked p.loaded waiting entry then do
      let (deferred, p) ← round waiting rest p
      pure (entry :: deferred, p)
    else do
      let p ← addRelation p entry
      round waiting rest p

/-- Rounds until nothing waits any more. -/
def rounds (pending : List RelationEntry) (p : Progress α) : Except GraphError (Progress α) :=
  match round (pending.map (·.id)) pending p with
  | .error e => .error e
  | .ok ([], p) => .ok p
  | .ok (first :: deferred, p) =>
    if deferred.length + 1 < pending.length then rounds (first :: deferred) p
    else .error (Loaded.unknown first.target)
termination_by pending.length

/-- The relations into claims, and then all others. -/
def inOrder (relations : List RelationEntry) : List RelationEntry :=
  relations.filter (·.target.cls = "claim") ++ relations.filter (·.target.cls ≠ "claim")

/-- Adds a payload to a graph, or nothing at all. -/
def load (payload : Payload) (g : Graph α) : Except GraphError (Loaded × Graph α) := do
  let p := payload.claims.foldl addClaim ⟨g, .none⟩
  let p ← rounds (inOrder payload.relations) p
  pure (p.loaded, p.graph)

end Payload

end ArgumentDiagram
