import ArgumentDiagram.Number.Style

/-!
The numbers that coordinates and sizes are made of. Geometry, layout and drawing are written over any
`Scalar`, so that they run on binary32 numbers and can be reasoned about in exact arithmetic. Numbers that
are also written out have a `WrittenScalar`.
-/

namespace ArgumentDiagram

/-- A number type that pictures can be computed in. -/
class Scalar (α : Type) extends Add α, Sub α, Mul α, Div α, Neg α, OfScientific α where
  /-- The number of a count. -/
  count : Nat → α
  lt : α → α → Bool
  le : α → α → Bool
  beq : α → α → Bool
  /-- The larger of two numbers, the other one if one of them is not a number. -/
  max : α → α → α
  /-- The smaller of two numbers, the other one if one of them is not a number. -/
  min : α → α → α
  abs : α → α
  /-- The least whole number of pixels that covers a length, kept between `0` and `2 ^ 32 - 1`. -/
  pixels : α → Nat
  pi : α
  cos : α → α
  sin : α → α
  /-- The angle of the direction with the given rise and run. -/
  atan2 : α → α → α

namespace Scalar

/-- The greatest number of pixels that a length can take. -/
def mostPixels : Nat := 0xFFFFFFFF

end Scalar

namespace Single

/-- Ties go to the second argument, which tells `0` and `-0` apart. -/
def max (a b : Float32) : Float32 := if b.isNaN || a > b then a else b

/-- Ties go to the second argument here too. -/
def min (a b : Float32) : Float32 := if b.isNaN || a < b then a else b

/-- Not a number has no extent, and neither has a negative length. -/
def pixels (x : Float32) : Nat := (max x.ceil 0).toUInt32.toNat

def pi : Float32 := 3.14159274

end Single

instance : Scalar Float32 where
  count n := .ofNat n
  lt a b := a < b
  le a b := a ≤ b
  beq a b := a == b
  max := Single.max
  min := Single.min
  abs := Float32.abs
  pixels := Single.pixels
  pi := Single.pi
  cos := Float32.cos
  sin := Float32.sin
  atan2 := Float32.atan2

/-- A number type whose numbers can be written out in the forms that pictures and documents use. -/
class WrittenScalar (α : Type) where
  write : NumberStyle → α → String
  /-- Writes a number with the given count of decimals. -/
  writeFixed : Nat → α → String

namespace WrittenScalar

variable {α : Type} [WrittenScalar α]

def plain (x : α) : String := write .plain x

def tagged (x : α) : String := write .tagged x

def document (x : α) : String := write .document x

end WrittenScalar

instance : WrittenScalar Float32 where
  write style x := style.write .single (.ofSingle x)
  writeFixed places x := (Binary.ofSingle x).writeFixed places

end ArgumentDiagram
