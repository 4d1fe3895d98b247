import ArgumentDiagram.Graph.Claim
import ArgumentDiagram.Graph.Error

/-!
Argument graphs: claims, and relations from claims to claims or to other relations. Every change raises
the revision, so two states of one graph with the same revision are the same.
-/

namespace ArgumentDiagram

structure Graph (α : Type) where
  claims : Table ClaimId (Claim α)
  relations : Table RelationId Relation
  nextClaim : Nat
  nextRelation : Nat
  revision : Nat

namespace Graph

variable {α : Type}

def empty : Graph α := ⟨.empty, .empty, 0, 0, 0⟩

def claim? (g : Graph α) (id : ClaimId) : Option (Claim α) := g.claims.get? id

def relation? (g : Graph α) (id : RelationId) : Option Relation := g.relations.get? id

def contains (g : Graph α) : Entity → Bool
  | .claim id => g.claims.contains id
  | .relation id => g.relations.contains id

/-- Why a handle that is not live is not. -/
def absence (g : Graph α) : Entity → Absence
  | .claim id => if id.index < g.nextClaim then .deleted else .unknown
  | .relation id => if id.index < g.nextRelation then .deleted else .unknown

/-- The text of a claim that joins the sources of one relation. -/
def joinText : String := "&"

variable [Scalar α]

def addClaim (g : Graph α) (text : String) (metadata : Metadata) : ClaimId × Graph α :=
  let id : ClaimId := ⟨g.nextClaim⟩
  (id, { g with
    claims := g.claims.insert id (.create id text metadata)
    nextClaim := g.nextClaim + 1
    revision := g.revision + 1 })

/-- Adds a relation between entities that are known to be live. -/
def pushRelation (g : Graph α) (source : ClaimId) (target : Entity) (kind : Option RelationKind)
    (metadata : Metadata) : RelationId × Graph α :=
  let id : RelationId := ⟨g.nextRelation⟩
  (id, { g with
    relations := g.relations.insert id ⟨id, source, target, kind, metadata⟩
    nextRelation := g.nextRelation + 1
    revision := g.revision + 1 })

def checkSource (g : Graph α) (id : ClaimId) : Except GraphError Unit :=
  if g.contains (.claim id) then .ok () else .error (.invalidSource (g.absence (.claim id)) id)

def checkTarget (g : Graph α) (target : Entity) : Except GraphError Unit :=
  if g.contains target then .ok () else .error (.invalidTarget (g.absence target) target)

/-- Adds a relation from one claim. -/
def relate (g : Graph α) (source : ClaimId) (target : Entity) (kind : Option RelationKind)
    (metadata : Metadata) : Except GraphError (RelationId × Graph α) := do
  g.checkSource source
  g.checkTarget target
  pure (g.pushRelation source target kind metadata)

/-- Adds a neutral relation from each source to one claim. -/
def pushFeeders (g : Graph α) (joint : ClaimId) (metadata : Metadata) (sources : List ClaimId) :
    Graph α :=
  sources.foldl (fun g source => (g.pushRelation source (.claim joint) none metadata).2) g

/-- Joins sources in a new claim and relates that claim to the target. -/
def pushJoined (g : Graph α) (sources : List ClaimId) (target : Entity) (kind : Option RelationKind)
    (metadata : Metadata) : RelationId × Graph α :=
  let (joint, g) := g.addClaim joinText .plain
  (g.pushFeeders joint metadata sources).pushRelation joint target kind
    { metadata with merged := true }

/-- Adds a relation from any number of claims. No sources add nothing; several are joined in a new claim
first. All handles are checked before anything is added. -/
def addRelation (g : Graph α) (sources : List ClaimId) (target : Entity)
    (kind : Option RelationKind) (metadata : Metadata) :
    Except GraphError (Option RelationId × Graph α) :=
  match sources with
  | [] => .ok (none, g)
  | [source] => do
    let (id, g) ← g.relate source target kind metadata
    pure (some id, g)
  | sources => do
    sources.forM g.checkSource
    g.checkTarget target
    let (id, g) := g.pushJoined sources target kind metadata
    pure (some id, g)

end Graph

end ArgumentDiagram
