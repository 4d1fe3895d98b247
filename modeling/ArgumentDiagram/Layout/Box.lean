import ArgumentDiagram.Geometry.Rect
import ArgumentDiagram.Graph.Entity

/-!
Trees of boxes. Rows and columns are as long as their boxes with the gaps between them, and as wide as the
widest of these.
-/

namespace ArgumentDiagram

inductive Direction where
  | horizontal
  | vertical
deriving DecidableEq

inductive LayoutBox (α : Type) where
  | container (direction : Direction) (gap : α) (children : List (LayoutBox α))
  | claim (id : ClaimId) (size : Size α)
  | spacer (size : Size α)

namespace LayoutBox

variable {α : Type} [Scalar α]

/-- The size of boxes next to each other, given their sizes. -/
def packedSize (direction : Direction) (gap : α) (sizes : List (Size α)) : Size α :=
  let gaps := Scalar.count (sizes.length - 1) * gap
  match direction with
  | .horizontal =>
    ⟨sizes.foldl (fun sum s => sum + s.width) 0.0 + gaps,
      sizes.foldl (fun most s => Scalar.max most s.height) 0.0⟩
  | .vertical =>
    ⟨sizes.foldl (fun most s => Scalar.max most s.width) 0.0,
      sizes.foldl (fun sum s => sum + s.height) 0.0 + gaps⟩

def size : LayoutBox α → Size α
  | .container direction gap children =>
    packedSize direction gap (children.attach.map fun ⟨child, _⟩ => child.size)
  | .claim _ size => size
  | .spacer size => size

/-- The claims at the leaves, from first to last. -/
def leaves : LayoutBox α → List ClaimId
  | .container _ _ children => (children.attach.map fun ⟨child, _⟩ => child.leaves).flatten
  | .claim id _ => [id]
  | .spacer _ => []

theorem size_container (direction : Direction) (gap : α) (children : List (LayoutBox α)) :
    (container direction gap children).size = packedSize direction gap (children.map size) := by
  simp [size]

omit [Scalar α] in
theorem leaves_container (direction : Direction) (gap : α) (children : List (LayoutBox α)) :
    (container direction gap children).leaves = children.flatMap leaves := by
  simp [leaves, List.flatMap]

end LayoutBox

end ArgumentDiagram
