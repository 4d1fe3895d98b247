import Mathlib.Algebra.Group.Nat.Defs
import ArgumentDiagram.Proofs.Number.SignOfZero

/-!
Packing a binary32 number back from its parts gives the number again. So an operation that has nothing to round,
such as adding zero, changes at most the sign of a zero.
-/

open Float.Model (Format UnpackedFloat)
open Float.Model.UnpackedFloat

namespace ArgumentDiagram.Single

variable {b : BitVec Format.binary32.numBits}

theorem packComponents_unpack (b : BitVec Format.binary32.numBits) :
    packComponents Format.binary32 (Sign.ofBitVec (unpackSign b)) (unpackExponent b) (unpackMantissa b) = b := by
  have hsign : ∀ s : BitVec 1, (Sign.ofBitVec s).toBitVec = s := by decide
  rw [packComponents, hsign]
  refine BitVec.eq_of_getLsbD_eq fun i hi => ?_
  have hbound : i < 32 := hi
  rw [BitVec.getLsbD_append, BitVec.getLsbD_append]
  have hsignBit : unpackSign b = BitVec.extractLsb 31 31 b := rfl
  simp only [unpackMantissa, unpackExponent, hsignBit, BitVec.getLsbD_cast, BitVec.getLsbD_extractLsb]
  split
  next hmantissa =>
    simp
    omega
  next hmantissa =>
    have hshift : 23 + (i - 23) = i := by omega
    split
    next hexponent =>
      simp [hshift]
      omega
    next hexponent =>
      obtain rfl : i = 31 := by omega
      rfl

/-- The mantissa of a number that is not tiny has a leading one. -/
theorem toNat_one_append (m : BitVec 23) : (1#1 ++ m).toNat = 2 ^ 23 + m.toNat := by
  rw [BitVec.toNat_append, ← Nat.shiftLeft_add_eq_or_of_lt m.isLt]
  rfl

theorem log2_one_append (m : BitVec 23) : (1#1 ++ m).toNat.log2 = 23 := by
  have hm := m.isLt
  rw [toNat_one_append]
  refine (Nat.log2_eq_iff (by omega)).2 ⟨by omega, by omega⟩

theorem pack_normal (h : unpackExponent b ≠ -1#8) (hsize : 0 < (1#1 ++ unpackMantissa b).toNat) :
    pack Format.binary32 (.finite (Sign.ofBitVec (unpackSign b)) (1#1 ++ unpackMantissa b).toNat
      ((unpackExponent b).toNat - (127 + 23 : Int)) hsize) = b := by
  have hbiased : ((unpackExponent b).toNat - (127 + 23 : Int) + 127 + 23).toNat = (unpackExponent b).toNat := by
    omega
  have hroom : ¬2 ^ 8 ≤ (unpackExponent b).toNat + 1 := by
    have hlt : (unpackExponent b).toNat < 2 ^ 8 := (unpackExponent b).isLt
    have hne : (unpackExponent b).toNat ≠ 255 := fun heq => h (BitVec.eq_of_toNat_eq heq)
    omega
  have hmantissa : BitVec.ofNat 23 (1#1 ++ unpackMantissa b).toNat = unpackMantissa b := by
    refine BitVec.eq_of_toNat_eq ?_
    have hm : (unpackMantissa b).toNat < 2 ^ 23 := (unpackMantissa b).isLt
    rw [toNat_one_append, BitVec.toNat_ofNat, Nat.add_mod_left, Nat.mod_eq_of_lt hm]
  show (if 2 ^ 8 ≤ ((unpackExponent b).toNat - (127 + 23 : Int) + 127 + 23).toNat + 1 then _
    else if (1#1 ++ unpackMantissa b).toNat.log2 + 1 = 24 then packComponents Format.binary32 _
      (BitVec.ofNat 8 ((unpackExponent b).toNat - (127 + 23 : Int) + 127 + 23).toNat)
      (BitVec.ofNat 23 (1#1 ++ unpackMantissa b).toNat) else _) = b
  rw [hbiased, if_neg hroom, if_pos (congrArg (· + 1) (log2_one_append _)), hmantissa, BitVec.ofNat_toNat,
    BitVec.setWidth_eq, packComponents_unpack]

theorem pack_tiny (h : unpackExponent b = 0#8) (hsize : 0 < (unpackMantissa b).toNat) :
    pack Format.binary32 (.finite (Sign.ofBitVec (unpackSign b)) (unpackMantissa b).toNat
      ((unpackExponent b).toNat - (127 + 23 : Int) + 1) hsize) = b := by
  have hexponent : (unpackExponent b).toNat = 0 := congrArg BitVec.toNat h
  have hbiased : ((unpackExponent b).toNat - (127 + 23 : Int) + 1 + 127 + 23).toNat = 1 := by omega
  have hshort : ¬(unpackMantissa b).toNat.log2 + 1 = 24 := by
    intro heq
    have hm : (unpackMantissa b).toNat < 2 ^ 23 := (unpackMantissa b).isLt
    have hlog := (Nat.log2_lt (Nat.ne_of_gt hsize)).2 hm
    omega
  show (if 2 ^ 8 ≤ ((unpackExponent b).toNat - (127 + 23 : Int) + 1 + 127 + 23).toNat + 1 then _
    else if (unpackMantissa b).toNat.log2 + 1 = 24 then _ else packComponents Format.binary32 _ 0#8
      (BitVec.ofNat 23 (unpackMantissa b).toNat)) = b
  rw [hbiased, if_neg (by decide), if_neg hshort, BitVec.ofNat_toNat, BitVec.setWidth_eq, ← h,
    packComponents_unpack]

/-- What is neither infinite nor no number is packed back. -/
theorem pack_unpack_of_finite (h : unpackExponent b ≠ -1#8) :
    pack Format.binary32 (unpack Format.binary32 b) = b := by
  unfold unpack
  dsimp only
  rw [if_neg h]
  by_cases hzero : unpackExponent b = 0#8
  · rw [if_pos hzero]
    by_cases hmantissa : unpackMantissa b = 0#23
    · rw [dif_pos hmantissa]
      calc packComponents Format.binary32 (Sign.ofBitVec (unpackSign b)) 0#8 0#23
          = packComponents Format.binary32 (Sign.ofBitVec (unpackSign b)) (unpackExponent b)
            (unpackMantissa b) := by rw [hzero, hmantissa]
        _ = b := packComponents_unpack b
    · rw [dif_neg hmantissa]
      exact pack_tiny hzero _
  · rw [if_neg hzero]
    exact pack_normal h _

/-- Packing gives back the bits of every number. -/
theorem pack_unpack (b : BitVec Format.binary32.numBits) (hvalid : Format.binary32.Valid b) :
    pack Format.binary32 (unpack Format.binary32 b) = b := by
  by_cases hexponent : unpackExponent b = -1#8
  · unfold unpack
    dsimp only
    rw [if_pos hexponent]
    by_cases hmantissa : unpackMantissa b = 0#23
    · rw [if_pos hmantissa]
      calc packComponents Format.binary32 (Sign.ofBitVec (unpackSign b)) (-1#8) 0#23
          = packComponents Format.binary32 (Sign.ofBitVec (unpackSign b)) (unpackExponent b)
            (unpackMantissa b) := by rw [hexponent, hmantissa]
        _ = b := packComponents_unpack b
    · rw [if_neg hmantissa]
      exact (hvalid.eq_packedNaN hexponent hmantissa).symm
  · exact pack_unpack_of_finite hexponent

/-- Packing the parts of a number gives the number. -/
theorem model_pack_unpack (x : Float32) :
    (Float32.Model.pack x.toModel.unpack).unpack = x.toModel.unpack :=
  congrArg (unpack Format.binary32) (pack_unpack _ x.toModel.valid)

/-- Adding zero changes at most the sign of a zero. -/
theorem alike_add_zero (u : UnpackedFloat) (s : Sign) : Alike (add Format.binary32 u (.zero s)) u := by
  cases u with
  | zero t =>
      obtain ⟨r, h⟩ := Alike.add_zeros Format.binary32 t s
      rw [h]
      exact .zeros r t
  | _ => exact .refl _

namespace Same

variable {x y x' y' : Float32}

theorem add_zero (x : Float32) : Same (x + 0.0) x := by
  have hsum : (x + 0.0).toModel.unpack = (Float32.Model.pack (UnpackedFloat.add Format.binary32 x.toModel.unpack
      (0.0 : Float32).toModel.unpack)).unpack := rfl
  have hkept := (alike_add_zero x.toModel.unpack .positive).pack
  rw [model_pack_unpack] at hkept
  rwa [same_iff, hsum, unpack_zero]

theorem lt (hx : Same x x') (hy : Same y y') : Scalar.lt x y = Scalar.lt x' y' := by
  show decide (x < y) = decide (x' < y')
  simp only [lt_iff, hx.compare hy]

end Same

end ArgumentDiagram.Single
