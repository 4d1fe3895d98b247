import ArgumentDiagram.Canvas.Basic

/-!
Selecting and dragging with a pointer. A press selects; moving it far enough drags the selection, which
lands where it is released.
-/

namespace ArgumentDiagram.Canvas

variable {α : Type} [Scalar α]

/-- How far a pointer has to move, left and right or up and down, before it drags. -/
def dragThreshold : α := 2.0

/-- Whether a pointer that has moved this far drags. -/
def isDrag (dx dy : α) : Bool :=
  Scalar.lt dragThreshold (Scalar.abs dx) || Scalar.lt dragThreshold (Scalar.abs dy)

/-- Selects the claim under the pointer, in addition to the others if `extend` is set. -/
def pointerDown (c : Canvas α) (point : Point α) (extend : Bool) : Canvas α :=
  let c := { c with press := some ⟨point, false⟩ }
  match c.claimAt point with
  | none => c
  | some id =>
    if c.selected.contains id then c
    else { c with selected := if extend then c.selected ++ [id] else [id] }.update

/-- Drags the selection while the pointer is down, and shows what it is over while it is not. -/
def pointerMove (c : Canvas α) (point : Point α) : Canvas α :=
  match c.press with
  | none => { c with cursor := if (c.claimAt point).isSome then .pointer else .normal }
  | some press =>
    let dx := point.x - press.start.x
    let dy := point.y - press.start.y
    { c with
      press := some { press with dragging := press.dragging || isDrag dx dy }
      graph := c.graph.updateClaims c.selected (·.dragBy dx dy) }.update

/-- Ends a drag, or a click, which deselects everything where there is no claim. -/
def pointerUp (c : Canvas α) (point : Point α) : Canvas α :=
  let dragged := c.press.any (·.dragging)
  let c := { c with cursor := .normal, press := none }
  if dragged then
    if c.selected.isEmpty then c
    else
      let c := { c with graph := c.graph.updateClaims c.selected Placement.commitOffset }.update
      (c.fire dropEvent (.drop c.selected)).2
  else
    let c := { c with graph := c.graph.updateClaims c.selected (·.dragBy 0.0 0.0) }
    { c with selected := if (c.claimAt point).isNone then [] else c.selected }.update

end ArgumentDiagram.Canvas
