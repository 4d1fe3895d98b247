import ArgumentDiagram.Scalar

/-!
Points of the plane, with `y` growing downwards.
-/

namespace ArgumentDiagram

structure Point (α : Type) where
  x : α
  y : α
deriving DecidableEq

namespace Point

variable {α : Type} [Scalar α]

def midpoint (a b : Point α) : Point α := ⟨a.x + (b.x - a.x) / 2.0, a.y + (b.y - a.y) / 2.0⟩

/-- The point at `distance` along `angle`, in radians. -/
def polarOffset (p : Point α) (distance angle : α) : Point α :=
  ⟨p.x + distance * Scalar.cos angle, p.y + distance * Scalar.sin angle⟩

def scaled (p : Point α) (factor : α) : Point α := ⟨p.x * factor, p.y * factor⟩

/-- The angle of the direction from `a` to `b`. -/
def direction (a b : Point α) : α := Scalar.atan2 (b.y - a.y) (b.x - a.x)

end Point

end ArgumentDiagram
