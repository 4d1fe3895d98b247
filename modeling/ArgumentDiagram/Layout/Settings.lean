import ArgumentDiagram.Geometry.Rect

/-!
The distances and rooms that a layout keeps.
-/

namespace ArgumentDiagram

structure LayoutSettings (α : Type) where
  /-- Gap between the boxes of a row. -/
  horizontalSpacing : α
  /-- Gap between the boxes of a column. -/
  verticalSpacing : α
  origin : Point α
  /-- Room left of the relations into a relation, for the arrow they point at. -/
  relationSpacer : Size α
  /-- Room above the source of a relation that no relation points at. -/
  leafSpacer : Size α

namespace LayoutSettings

variable {α : Type} [OfScientific α]

def standard : LayoutSettings α where
  horizontalSpacing := 10.0
  verticalSpacing := 10.0
  origin := ⟨20.0, 20.0⟩
  relationSpacer := ⟨200.0, 20.0⟩
  leafSpacer := ⟨20.0, 50.0⟩

end LayoutSettings

end ArgumentDiagram
