import Mathlib.Algebra.Order.Field.Basic
import Mathlib.Algebra.Order.Floor.Ring
import Mathlib.Data.Rat.Floor
import Mathlib.Tactic.Linarith
import Mathlib.Tactic.NormNum
import ArgumentDiagram.Geometry.Rect

/-!
Exact arithmetic. Any ordered field serves as coordinates, once it is said what stands for the circle
constant and the functions of angles, which layouts do not use.
-/

namespace ArgumentDiagram

/-- What pictures need besides the operations of a field. -/
class Angles (α : Type) where
  pi : α
  cos : α → α
  sin : α → α
  atan2 : α → α → α

/-- Rational angles, counted in quarter turns. Directions go around a diamond here and not around a circle: a
unit of length is one in `|x| + |y|`. -/
instance diamondAngles : Angles ℚ where
  pi := 2
  cos angle := |4 * Int.fract (angle / 4) - 2| - 1
  sin angle := |4 * Int.fract ((angle - 1) / 4) - 2| - 1
  atan2 y x :=
    let rise := y / (|x| + |y|)
    if 0 ≤ x then rise else if 0 ≤ y then 2 - rise else -2 - rise

variable {K : Type} [Field K] [LinearOrder K]

theorem exact_zero [IsStrictOrderedRing K] : (0.0 : K) = 0 := by norm_num

theorem exact_two [IsStrictOrderedRing K] : (2.0 : K) = 2 := by norm_num

/-- A quotient by zero is zero here, where binary32 numbers give an infinity or none. So what divides by how far two
centers are apart can take another branch where they are level or coincide. -/
instance exactScalar [FloorSemiring K] [Angles K] : Scalar K where
  count n := n
  lt a b := decide (a < b)
  le a b := decide (a ≤ b)
  beq a b := decide (a = b)
  max a b := max a b
  min a b := min a b
  abs a := |a|
  pixels a := min ⌈a⌉₊ Scalar.mostPixels
  pi := Angles.pi
  cos := Angles.cos
  sin := Angles.sin
  atan2 := Angles.atan2

theorem exact_beq [FloorSemiring K] [Angles K] {a b : K} : Scalar.beq a b = true ↔ a = b := decide_eq_true_iff

end ArgumentDiagram
