import ArgumentDiagram.Table.Order

/-!
Handles of claims and relations. Handles are counted upwards and never given out twice.
-/

namespace ArgumentDiagram

structure ClaimId where
  index : Nat
deriving DecidableEq

structure RelationId where
  index : Nat
deriving DecidableEq

/-- What a relation points at, and what can be deleted: a claim or a relation. -/
inductive Entity where
  | claim (id : ClaimId)
  | relation (id : RelationId)
deriving DecidableEq

instance : KeyOrder ClaimId := .comap ClaimId.index (congrArg ClaimId.mk)

instance : KeyOrder RelationId := .comap RelationId.index (congrArg RelationId.mk)

namespace ClaimId

def describe (id : ClaimId) : String := "claim #" ++ toString id.index

end ClaimId

namespace RelationId

def describe (id : RelationId) : String := "relation #" ++ toString id.index

end RelationId

namespace Entity

def describe : Entity → String
  | .claim id => id.describe
  | .relation id => id.describe

end Entity

end ArgumentDiagram
