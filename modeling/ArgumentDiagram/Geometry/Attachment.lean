import ArgumentDiagram.Geometry.Rect

/-!
Where the line of a relation meets the boxes at its ends.
-/

namespace ArgumentDiagram

/-- A box given by its center. -/
structure CenteredBox (α : Type) where
  center : Point α
  width : α
  height : α
deriving DecidableEq

namespace CenteredBox

variable {α : Type} [Scalar α]

/-- The point on the left or right edge's line, where the line between the centers crosses it. -/
def onSide (target source : CenteredBox α) : Point α :=
  let run := source.center.x - target.center.x
  let rise := source.center.y - target.center.y
  let side : α := if Scalar.lt source.center.x target.center.x then -0.5 else 0.5
  ⟨target.center.x + side * target.width, target.center.y + rise / run * side * target.width⟩

/-- The point on the top or bottom edge's line, where the line between the centers crosses it. -/
def onCap (target source : CenteredBox α) : Point α :=
  let run := source.center.x - target.center.x
  let rise := source.center.y - target.center.y
  let side : α := if Scalar.lt source.center.y target.center.y then -0.5 else 0.5
  ⟨target.center.x + run / rise * side * target.height, target.center.y + side * target.height⟩

/-- Whether a line of slope ratio `run / rise` leaves through the top or bottom edge. The lower bound is
half the box's aspect, so the choice is not the same for a source on the other side. -/
def leavesThroughCap (target source : CenteredBox α) : Bool :=
  let ratio := (source.center.x - target.center.x) / (source.center.y - target.center.y)
  Scalar.lt ratio (target.width / target.height)
    && !Scalar.lt (ratio * target.height) (-0.5 * target.width)

/-- The end, on `target`, of the line from the center of `source` to the center of `target`. -/
def attachment (source target : CenteredBox α) : Point α :=
  if target.leavesThroughCap source then target.onCap source else target.onSide source

end CenteredBox

end ArgumentDiagram
