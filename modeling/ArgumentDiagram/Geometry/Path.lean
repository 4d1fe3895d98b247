import ArgumentDiagram.Geometry.Point

/-!
Polyline paths, and the marks at the end of a relation line: an arrowhead or a cross.
-/

namespace ArgumentDiagram

/-- Runs of connected points; each run of a closed path returns to its first point. -/
structure Path (α : Type) where
  segments : List (List (Point α))
  closed : Bool
deriving DecidableEq

namespace Path

variable {α : Type} [Scalar α]

def line (a b : Point α) : Path α := ⟨[[a, b]], false⟩

def scaled (p : Path α) (factor : α) : Path α :=
  { p with segments := p.segments.map fun run => run.map fun q => q.scaled factor }

/-- The point `radius` short of the tip, where the line itself stops. -/
def retractedEnd (radius : α) (start tip : Point α) : Point α :=
  tip.polarOffset (-radius) (start.direction tip)

/-- The filled arrowhead of the given radius with its tip at the end of the line. -/
def arrow (radius : α) (start tip : Point α) : Path α :=
  let angle := start.direction tip
  let center := tip.polarOffset (-radius) angle
  let turn : α := 2.0 * Scalar.pi / 3.0
  ⟨[[center.polarOffset radius angle, center.polarOffset radius (angle + turn),
    center.polarOffset radius (angle + turn + turn)]], true⟩

/-- Two crossing strokes just before the tip. -/
def cross (radius : α) (start tip : Point α) : Path α :=
  let angle := start.direction tip
  let a := tip.polarOffset radius (angle + 0.5 * Scalar.pi)
  let b := tip.polarOffset radius (angle - 0.5 * Scalar.pi)
  ⟨[[a.polarOffset (-0.5 * radius) angle, b.polarOffset (-2.5 * radius) angle],
    [b.polarOffset (-0.5 * radius) angle, a.polarOffset (-2.5 * radius) angle]], false⟩

end Path

end ArgumentDiagram
