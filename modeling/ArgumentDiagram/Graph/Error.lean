import ArgumentDiagram.Graph.Entity
import ArgumentDiagram.Payload.Id

/-!
Why an operation on a graph, a layout or a loader is refused, and the message for each cause.
-/

namespace ArgumentDiagram

/-- Why a handle stands for nothing: what it stood for was deleted, or it was never given out. -/
inductive Absence where
  | deleted
  | unknown
deriving DecidableEq

inductive GraphError where
  /-- A source of a relation is no live claim. -/
  | invalidSource (absence : Absence) (id : ClaimId)
  /-- The target of a relation is no live claim or relation. -/
  | invalidTarget (absence : Absence) (entity : Entity)
  /-- A payload refers to something that it does not hold. -/
  | unknownReference (cls : String) (id : PayloadId)
  /-- A payload refers to something that is neither a claim nor a relation. -/
  | unknownClass (cls : String)
  | duplicateRelation (id : PayloadId)
  | unknownVariable (name : String)
  /-- A script uses a relation where only claims can stand. -/
  | relationAsSource (name : String)
  /-- A statement of a script was refused; lines count from one. -/
  | script (line : Nat) (cause : GraphError)
  | unmeasured (id : ClaimId)
  /-- A claim depends on itself. -/
  | cycle (id : ClaimId)
  | missingRelation (id : RelationId)
deriving DecidableEq

namespace Absence

def describe : Absence → String
  | .deleted => "deleted"
  | .unknown => "unknown"

end Absence

namespace GraphError

def message : GraphError → String
  | .invalidSource absence id =>
    "relation source should be a claim, is " ++ absence.describe ++ " " ++ id.describe
  | .invalidTarget absence entity =>
    "relation target should be a claim or relation, is " ++ absence.describe ++ " " ++ entity.describe
  | .unknownReference cls id => "unknown " ++ cls ++ " reference '" ++ id.describe ++ "'"
  | .unknownClass cls => "unknown type '" ++ cls ++ "'"
  | .duplicateRelation id => "relation id '" ++ id.describe ++ "' occurs multiple times"
  | .unknownVariable name => "variable \"" ++ name ++ "\" is unknown"
  | .relationAsSource name =>
    "variable \"" ++ name ++ "\" names a relation, which cannot be a source"
  | .script line cause => "parse error on line " ++ toString line ++ ": " ++ cause.message
  | .unmeasured id => "claim " ++ id.describe ++ " has not been measured yet"
  | .cycle id => "claim " ++ id.describe ++ " is part of a relation cycle"
  | .missingRelation id => "relation " ++ id.describe ++ " no longer exists"

end GraphError

end ArgumentDiagram
