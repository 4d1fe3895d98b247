import ArgumentDiagram.Layout.Build
import ArgumentDiagram.Proofs.Graph.WellFormed

/-!
What applying a layout does to a graph. An outline names the claims at the leaves in their order, and each of
them ends up where the last of its boxes is. Nothing else about the graph changes.
-/

namespace ArgumentDiagram

/-- The claim that stands at a place. -/
def BoxKind.claim? : BoxKind → Option ClaimId
  | .claim id => some id
  | _ => none

theorem BoxKind.claim?_eq_some_iff {kind : BoxKind} {id : ClaimId} :
    kind.claim? = some id ↔ kind = .claim id := by
  cases kind <;> simp [claim?]

namespace Outline

variable {α : Type}

/-- The boxes of a claim, in their order. -/
def boxesOf (outline : Outline α) (id : ClaimId) : List (PlacedBox α) :=
  outline.filter fun placed => placed.kind = .claim id

/-- The corner of the last box of a claim. -/
def lastCorner? (outline : Outline α) (id : ClaimId) : Option (Point α) :=
  (outline.boxesOf id).getLast?.map fun placed => ⟨placed.rect.x, placed.rect.y⟩

end Outline

namespace LayoutBox

variable {α : Type} [Scalar α]

/-- An outline names the claims at the leaves, from first to last. -/
theorem claims_outline (box : LayoutBox α) (corner : Point α) (depth : Nat) :
    (box.outline corner depth).filterMap (·.kind.claim?) = box.leaves := by
  refine (outline.mutual_induct
    (fun box corner depth => (box.outline corner depth).filterMap (·.kind.claim?) = box.leaves)
    (fun direction gap outer corner depth children along =>
      (outlineChildren direction gap outer corner depth children along).filterMap (·.kind.claim?) =
        children.flatMap leaves) ?_ ?_ ?_ ?_ ?_).1 box corner depth
  · intro corner depth direction gap children size ih
    rw [outline, List.filterMap_cons_none rfl, ih, leaves_container]
  · intro corner depth id size
    simp [outline, leaves, kind, BoxKind.claim?]
  · intro corner depth size
    simp [outline, leaves, kind, BoxKind.claim?]
  · intros
    rw [outlineChildren, List.filterMap_nil, List.flatMap_nil]
  · intro direction gap outer corner depth child rest along ihchild ihrest
    rw [outlineChildren, List.filterMap_append, ihchild, ihrest, List.flatMap_cons]

end LayoutBox

namespace Outline

variable {α : Type}

theorem lastCorner?_cons_of_eq {placed : PlacedBox α} {id : ClaimId} (h : placed.kind = .claim id)
    (rest : Outline α) : lastCorner? (placed :: rest) id =
      some ((lastCorner? rest id).getD ⟨placed.rect.x, placed.rect.y⟩) := by
  cases hlast : (boxesOf rest id).getLast? <;> simp_all [lastCorner?, boxesOf, List.getLast?_cons]

theorem lastCorner?_cons_of_ne {placed : PlacedBox α} {id : ClaimId} (h : placed.kind ≠ .claim id)
    (rest : Outline α) : lastCorner? (placed :: rest) id = lastCorner? rest id := by
  simp [lastCorner?, boxesOf, h]

theorem lastCorner?_eq_none_iff {outline : Outline α} {id : ClaimId} :
    outline.lastCorner? id = none ↔ id ∉ outline.filterMap (·.kind.claim?) := by
  simp [lastCorner?, boxesOf, BoxKind.claim?_eq_some_iff]

end Outline

namespace Layout

variable {α : Type}

/-- Moving claims takes each claim of the outline to the corner of its last box. -/
theorem claim?_moveClaims (outline : Outline α) (g : Graph α) (id : ClaimId) :
    (moveClaims outline g).claim? id = (g.claim? id).map fun c =>
      match outline.lastCorner? id with
      | some corner => c.mapPlacement (·.moveTo corner)
      | none => c := by
  induction outline generalizing g with
  | nil => simp [moveClaims, Outline.lastCorner?, Outline.boxesOf]
  | cons placed rest ih =>
      have hstep : moveClaims (placed :: rest) g = moveClaims rest (moveClaims [placed] g) := rfl
      rw [hstep, ih]
      by_cases hkind : placed.kind = .claim id
      · have hone : moveClaims [placed] g =
            g.updateClaim id (·.moveTo ⟨placed.rect.x, placed.rect.y⟩) := by
          simp [moveClaims, hkind]
        rw [hone, Graph.claim?_updateClaim, if_pos rfl, Option.map_map,
          Outline.lastCorner?_cons_of_eq hkind]
        cases Outline.lastCorner? rest id <;> rfl
      · have hone : (moveClaims [placed] g).claim? id = g.claim? id := by
          cases hother : placed.kind with
          | claim other =>
              have hne : id ≠ other := fun heq => hkind (heq ▸ hother)
              simp [moveClaims, hother, Graph.claim?_updateClaim, hne]
          | _ => simp [moveClaims, hother]
        rw [hone, Outline.lastCorner?_cons_of_ne hkind]

theorem claims_of_outline [Scalar α] (l : Layout α) :
    l.outline.filterMap (·.kind.claim?) = l.root.leaves :=
  LayoutBox.claims_outline l.root l.origin 0

end Layout

end ArgumentDiagram
