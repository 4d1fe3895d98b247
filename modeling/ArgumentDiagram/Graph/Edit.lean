import ArgumentDiagram.Graph.Basic

/-!
Working on claims. All operations but the first two change nothing but placements.
-/

namespace ArgumentDiagram

namespace Claim

variable {α : Type}

def mapPlacement (f : Placement α → Placement α) (c : Claim α) : Claim α :=
  { c with placement := f c.placement }

end Claim

namespace Graph

variable {α : Type}

/-- Works on a claim, down to what it says, if it is live. -/
def editClaim (g : Graph α) (id : ClaimId) (edit : Claim α → Claim α) : Graph α :=
  if g.claims.contains id then
    { g with claims := g.claims.modify id edit, revision := g.revision + 1 }
  else g

/-- Works on all claims at once. -/
def editClaims (g : Graph α) (edit : Claim α → Claim α) : Graph α :=
  { g with claims := g.claims.mapValues edit, revision := g.revision + 1 }

/-- Changes the placement of a claim, if it is live. -/
def updateClaim (g : Graph α) (id : ClaimId) (f : Placement α → Placement α) : Graph α :=
  if g.claims.contains id then
    { g with claims := g.claims.modify id (·.mapPlacement f), revision := g.revision + 1 }
  else g

/-- Changes the placements of several claims, one after the other. -/
def updateClaims (g : Graph α) (ids : List ClaimId) (f : Placement α → Placement α) : Graph α :=
  ids.foldl (fun g id => g.updateClaim id f) g

/-- Gives every claim a new placement at once. -/
def updateAll (g : Graph α) (f : Claim α → Placement α) : Graph α :=
  { g with
    claims := g.claims.mapValues fun c => { c with placement := f c }
    revision := g.revision + 1 }

/-- The number of claims with a property, and the graph where `f` has changed just these. -/
def updateWhere (g : Graph α) (which : Claim α → Bool) (f : Claim α → Claim α) : Nat × Graph α :=
  let count := g.claims.values.countP which
  if count = 0 then (0, g)
  else (count, { g with
    claims := g.claims.mapValues fun c => if which c then f c else c
    revision := g.revision + 1 })

variable [Scalar α]

/-- Gives every claim without a size the size of its text. -/
def measureClaims (g : Graph α) (sizeOf : List String → Size α) : Nat × Graph α :=
  g.updateWhere (!·.isMeasured) fun c => c.mapPlacement (·.measure (sizeOf c.text))

/-- Takes the size from every claim that has one. -/
def forgetSizes (g : Graph α) : Nat × Graph α :=
  g.updateWhere (·.isMeasured) fun c => c.mapPlacement Placement.forgetSize

end Graph

end ArgumentDiagram
