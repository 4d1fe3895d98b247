import ArgumentDiagram.Layout.Box

/-!
Placing trees of boxes. A container hands each child its place along the main axis and centers it across
it; an outline lists where every box ends up, containers before what they contain.
-/

namespace ArgumentDiagram

/-- What stands at a place. -/
inductive BoxKind where
  | container (direction : Direction)
  | spacer
  | claim (id : ClaimId)
deriving DecidableEq

structure PlacedBox (α : Type) where
  kind : BoxKind
  rect : Rect α
  /-- How many containers it is nested in. -/
  depth : Nat

abbrev Outline (α : Type) := List (PlacedBox α)

namespace LayoutBox

variable {α : Type} [Scalar α]

def kind : LayoutBox α → BoxKind
  | .container direction _ _ => .container direction
  | .claim id _ => .claim id
  | .spacer _ => .spacer

/-- The corner of a child `along` the main axis of a container of the given corner and size. -/
def childCorner (direction : Direction) (corner : Point α) (outer inner : Size α) (along : α) :
    Point α :=
  match direction with
  | .horizontal => ⟨corner.x + along, corner.y + (outer.height - inner.height) / 2.0⟩
  | .vertical => ⟨corner.x + (outer.width - inner.width) / 2.0, corner.y + along⟩

/-- The length of a box along the main axis. -/
def length (direction : Direction) (size : Size α) : α :=
  match direction with
  | .horizontal => size.width
  | .vertical => size.height

mutual

/-- Where a box with its top-left corner at the given point and everything in it ends up. -/
def outline (box : LayoutBox α) (corner : Point α) (depth : Nat) : Outline α :=
  let size := box.size
  let here : PlacedBox α := ⟨box.kind, ⟨corner.x, corner.y, size.width, size.height⟩, depth⟩
  match box with
  | .container direction gap children =>
    here :: outlineChildren direction gap size corner (depth + 1) children 0.0
  | .claim _ _ => [here]
  | .spacer _ => [here]

/-- Where the children of a container end up, the first of them `along` its main axis. -/
def outlineChildren (direction : Direction) (gap : α) (outer : Size α) (corner : Point α)
    (depth : Nat) : List (LayoutBox α) → α → Outline α
  | [], _ => []
  | child :: rest, along =>
    child.outline (childCorner direction corner outer child.size along) depth
      ++ outlineChildren direction gap outer corner depth rest
        (along + (length direction child.size + gap))

end

end LayoutBox

end ArgumentDiagram
