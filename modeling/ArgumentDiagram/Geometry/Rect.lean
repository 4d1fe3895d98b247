import ArgumentDiagram.Geometry.Point

/-!
Axis-aligned rectangles. Borders belong to no rectangle: containment is strict, and rectangles that only
share a border do not intersect.
-/

namespace ArgumentDiagram

structure Size (α : Type) where
  width : α
  height : α
deriving DecidableEq

/-- A rectangle given by its top-left corner and its size. -/
structure Rect (α : Type) where
  x : α
  y : α
  width : α
  height : α
deriving DecidableEq

namespace Rect

variable {α : Type} [Scalar α]

def right (r : Rect α) : α := r.x + r.width

def bottom (r : Rect α) : α := r.y + r.height

def size (r : Rect α) : Size α := ⟨r.width, r.height⟩

def contains (r : Rect α) (p : Point α) : Bool :=
  Scalar.lt r.x p.x && Scalar.lt r.y p.y && Scalar.lt p.x r.right && Scalar.lt p.y r.bottom

def intersects (r s : Rect α) : Bool :=
  Scalar.lt r.x s.right && Scalar.lt s.x r.right && Scalar.lt r.y s.bottom && Scalar.lt s.y r.bottom

/-- Moves every side outwards. -/
def inflate (r : Rect α) (amount : α) : Rect α :=
  ⟨r.x - amount, r.y - amount, r.width + 2.0 * amount, r.height + 2.0 * amount⟩

def scaled (r : Rect α) (factor : α) : Rect α :=
  ⟨r.x * factor, r.y * factor, r.width * factor, r.height * factor⟩

def center (r : Rect α) : Point α := ⟨r.x + 0.5 * r.width, r.y + 0.5 * r.height⟩

/-- The smallest rectangle around a non-empty list of rectangles. -/
def hull : List (Rect α) → Option (Rect α)
  | [] => none
  | r :: rest =>
    let left := rest.foldl (fun least s => Scalar.min least s.x) r.x
    let top := rest.foldl (fun least s => Scalar.min least s.y) r.y
    let right := rest.foldl (fun most s => Scalar.max most s.right) r.right
    let bottom := rest.foldl (fun most s => Scalar.max most s.bottom) r.bottom
    some ⟨left, top, right - left, bottom - top⟩

end Rect

end ArgumentDiagram
