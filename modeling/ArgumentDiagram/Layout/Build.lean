import ArgumentDiagram.Graph.Edit
import ArgumentDiagram.Graph.Query
import ArgumentDiagram.Layout.Outline
import ArgumentDiagram.Layout.Settings
import ArgumentDiagram.Table.Lemmas

/-!
The layout of a graph. Every root claim becomes a column: the claim, and below it a row with one column for
each relation that points at it. The column of a relation holds the room for its arrow, or the relations
that point at it, above the column of its source.
-/

namespace ArgumentDiagram

/-- A row of root columns, and where it starts. -/
structure Layout (α : Type) where
  root : LayoutBox α
  origin : Point α

namespace Layout

variable {α : Type}

def column (settings : LayoutSettings α) (children : List (LayoutBox α)) : LayoutBox α :=
  .container .vertical settings.verticalSpacing children

def row (settings : LayoutSettings α) (children : List (LayoutBox α)) : LayoutBox α :=
  .container .horizontal settings.horizontalSpacing children

/-- A claim, above a row of the columns of the relations that point at it. -/
def claimColumn (settings : LayoutSettings α) (id : ClaimId) (size : Size α)
    (incoming : List (LayoutBox α)) : LayoutBox α :=
  column settings (.claim id size :: if incoming.isEmpty then [] else [row settings incoming])

/-- The room of a relation, or the columns of the relations that point at it beside room for its arrow,
above the column of its source. -/
def relationColumn (settings : LayoutSettings α) (incoming : List (LayoutBox α))
    (source : LayoutBox α) : LayoutBox α :=
  let room := if incoming.isEmpty then .spacer settings.leafSpacer
    else row settings [.spacer settings.relationSpacer, column settings incoming]
  column settings [room, source]

/-- The live claims that are not on a path. -/
def offPath (g : Graph α) (path : List ClaimId) : List ClaimId :=
  g.claimIds.filter fun id => !path.contains id

/-- The relations that point at a relation. They are younger than it. -/
def incomingTo (g : Graph α) (id : RelationId) : List RelationId :=
  (g.incoming (.relation id)).filter fun other =>
    id.index < other.index && other.index < g.nextRelation

theorem offPath_cons_lt {g : Graph α} {path : List ClaimId} {id : ClaimId}
    (hfresh : path.contains id = false) (hlive : id ∈ g.claimIds) :
    (offPath g (id :: path)).length < (offPath g path).length := by
  have hsub : offPath g (id :: path) = (offPath g path).filter (· ≠ id) := by
    simp only [offPath, List.filter_filter]
    congr 1
    funext other
    by_cases h : other = id <;> simp [h]
  rw [hsub]
  refine Nat.lt_of_le_of_ne (List.length_filter_le ..) fun hlen => ?_
  have hmem : id ∈ offPath g path := List.mem_filter.2 ⟨hlive, by simpa using hfresh⟩
  simpa using List.length_filter_eq_length_iff.1 hlen id hmem

mutual

/-- The column of a claim. The path holds the claims whose columns it is part of. -/
def claimBox (g : Graph α) (settings : LayoutSettings α) (path : List ClaimId) (id : ClaimId) :
    Except GraphError (LayoutBox α) :=
  if _hfresh : path.contains id then .error (.cycle id)
  else
    match _hlive : g.claim? id with
    | none => .error (.invalidSource .unknown id)
    | some claim =>
      match claim.placement.size? with
      | none => .error (.unmeasured id)
      | some size => do
        let incoming ← (g.incoming (.claim id)).mapM fun r => relationBox g settings (id :: path) r
        pure (claimColumn settings id size incoming)
termination_by ((offPath g path).length, 0)
decreasing_by
  exact Prod.Lex.left _ _ (offPath_cons_lt (by simpa using _hfresh) (Table.mem_keys_of_get? _hlive))

/-- The column of a relation, within the columns of the claims on the path. -/
def relationBox (g : Graph α) (settings : LayoutSettings α) (path : List ClaimId)
    (id : RelationId) : Except GraphError (LayoutBox α) :=
  match g.relation? id with
  | none => .error (.missingRelation id)
  | some relation => do
    let incoming ← (incomingTo g id).attach.mapM fun r => relationBox g settings path r.1
    let source ← claimBox g settings path relation.source
    pure (relationColumn settings incoming source)
termination_by ((offPath g path).length, 1 + (g.nextRelation - id.index))
decreasing_by
  · obtain ⟨other, hmem⟩ := r
    have h := (List.mem_filter.1 hmem).2
    simp only [Bool.and_eq_true, decide_eq_true_eq] at h
    exact Prod.Lex.right _ (by simp only; omega)
  · exact Prod.Lex.right _ (by omega)

end

/-- The layout of a graph whose roots and the claims above them are all measured. -/
def build (g : Graph α) (settings : LayoutSettings α) : Except GraphError (Layout α) := do
  let columns ← g.rootClaims.mapM (claimBox g settings [])
  pure ⟨row settings columns, settings.origin⟩

variable [Scalar α]

def size (l : Layout α) : Size α := l.root.size

/-- Where every box of a layout ends up, the whole first. -/
def outline (l : Layout α) : Outline α := l.root.outline l.origin 0

/-- Moves the claims of an outline to their places, one after the other. -/
def moveClaims (outline : Outline α) (g : Graph α) : Graph α :=
  outline.foldl (fun g placed =>
    match placed.kind with
    | .claim id => g.updateClaim id (·.moveTo ⟨placed.rect.x, placed.rect.y⟩)
    | _ => g) g

def apply (l : Layout α) (g : Graph α) : Graph α := moveClaims l.outline g

end Layout

end ArgumentDiagram
