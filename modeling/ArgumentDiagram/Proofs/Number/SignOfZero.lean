import ArgumentDiagram.Scalar
import Mathlib.Logic.Basic

/-!
The sign of zero. Binary32 numbers that compare as equal are the same but for the sign of a zero, and the
operations that sizes are worked out with keep to that: they take numbers that are the same up to the sign of
zero to such numbers. Only division by a zero tells its signs apart.
-/

open Float.Model (Format UnpackedFloat)

namespace ArgumentDiagram.Single

/-- The same number, where the two zeros count as one. -/
def Same (x y : Float32) : Prop := x = y ∨ (x == y) = true

instance (x y : Float32) : Decidable (Same x y) := inferInstanceAs (Decidable (_ ∨ _))

/-- The same unpacked number, where the two zeros count as one. -/
def Alike (u v : UnpackedFloat) : Prop := u = v ∨ ∃ s t, u = .zero s ∧ v = .zero t

namespace Alike

variable {u v w : UnpackedFloat}

theorem refl (u : UnpackedFloat) : Alike u u := .inl rfl

theorem zeros (s t : UnpackedFloat.Sign) : Alike (.zero s) (.zero t) := .inr ⟨s, t, rfl, rfl⟩

theorem symm (h : Alike u v) : Alike v u := by
  rcases h with rfl | ⟨s, t, rfl, rfl⟩
  · exact .refl _
  · exact .zeros t s

theorem trans (h : Alike u v) (h' : Alike v w) : Alike u w := by
  rcases h with rfl | ⟨s, t, rfl, rfl⟩
  · exact h'
  · rcases h' with rfl | ⟨_, t', -, rfl⟩
    · exact .zeros s t
    · exact .zeros s t'

/-- Numbers that compare as equal are one number, or two zeros. -/
theorem of_compare (h : u.compare v = some .eq) : Alike u v := by
  cases u with
  | infinity s =>
      cases v with
      | infinity t => cases s <;> cases t <;> first | exact .refl _ | cases h
      | _ => cases s <;> cases h
  | notANumber => cases h
  | zero s =>
      cases v with
      | zero t => exact .zeros s t
      | infinity t => cases t <;> cases h
      | finite t n f hn => cases t <;> cases h
      | notANumber => cases h
  | finite s m e hm =>
      cases v with
      | finite t n f hn =>
          obtain ⟨rfl, rfl, rfl⟩ : s = t ∧ e = f ∧ m = n := by
            cases s <;> cases t <;> dsimp only [UnpackedFloat.compare] at h <;>
              simp [Ordering.swap_eq_eq, Ordering.then_eq_eq] at h <;> exact ⟨rfl, h⟩
          exact .refl _
      | infinity t => cases s <;> cases t <;> cases h
      | zero t => cases s <;> cases h
      | notANumber => cases s <;> cases h

theorem compare_self (h : u ≠ .notANumber) : u.compare u = some .eq := by
  cases u with
  | infinity s => cases s <;> rfl
  | notANumber => exact absurd rfl h
  | zero s => rfl
  | finite s m e hm => cases s <;> dsimp only [UnpackedFloat.compare] <;> simp

theorem compare_left (h : Alike u v) (w : UnpackedFloat) : u.compare w = v.compare w := by
  rcases h with rfl | ⟨s, t, rfl, rfl⟩
  · rfl
  · cases w with
    | infinity r => cases r <;> rfl
    | finite r m e hm => cases r <;> rfl
    | _ => rfl

theorem compare_right (h : Alike u v) (w : UnpackedFloat) : w.compare u = w.compare v := by
  rcases h with rfl | ⟨s, t, rfl, rfl⟩
  · rfl
  · cases w with
    | infinity r => cases r <;> rfl
    | finite r m e hm => cases r <;> rfl
    | _ => rfl

theorem isNaN (h : Alike u v) : u.isNaN = v.isNaN := by
  rcases h with rfl | ⟨s, t, rfl, rfl⟩ <;> rfl

/-- Two zeros add up to a zero. -/
theorem add_zeros (spec : Format) (s t : UnpackedFloat.Sign) :
    ∃ r, UnpackedFloat.add spec (.zero s) (.zero t) = .zero r := by
  cases s <;> cases t <;> exact ⟨_, rfl⟩

theorem add_left (spec : Format) (h : Alike u v) (w : UnpackedFloat) :
    Alike (UnpackedFloat.add spec u w) (UnpackedFloat.add spec v w) := by
  rcases h with rfl | ⟨s, t, rfl, rfl⟩
  · exact .refl _
  · cases w with
    | zero r =>
        obtain ⟨s', hs⟩ := add_zeros spec s r
        obtain ⟨t', ht⟩ := add_zeros spec t r
        rw [hs, ht]
        exact .zeros s' t'
    | _ => exact .refl _

theorem add_right (spec : Format) (h : Alike u v) (w : UnpackedFloat) :
    Alike (UnpackedFloat.add spec w u) (UnpackedFloat.add spec w v) := by
  rcases h with rfl | ⟨s, t, rfl, rfl⟩
  · exact .refl _
  · cases w with
    | zero r =>
        obtain ⟨s', hs⟩ := add_zeros spec r s
        obtain ⟨t', ht⟩ := add_zeros spec r t
        rw [hs, ht]
        exact .zeros s' t'
    | _ => exact .refl _

theorem mul_left (spec : Format) (h : Alike u v) (w : UnpackedFloat) :
    Alike (UnpackedFloat.mul spec u w) (UnpackedFloat.mul spec v w) := by
  rcases h with rfl | ⟨s, t, rfl, rfl⟩
  · exact .refl _
  · cases w with
    | zero r => exact .zeros ..
    | finite r m e hm => exact .zeros ..
    | _ => exact .refl _

theorem mul_right (spec : Format) (h : Alike u v) (w : UnpackedFloat) :
    Alike (UnpackedFloat.mul spec w u) (UnpackedFloat.mul spec w v) := by
  rcases h with rfl | ⟨s, t, rfl, rfl⟩
  · exact .refl _
  · cases w with
    | zero r => exact .zeros ..
    | finite r m e hm => exact .zeros ..
    | _ => exact .refl _

theorem div_left (spec : Format) (h : Alike u v) (w : UnpackedFloat) :
    Alike (UnpackedFloat.div spec u w) (UnpackedFloat.div spec v w) := by
  rcases h with rfl | ⟨s, t, rfl, rfl⟩
  · exact .refl _
  · cases w with
    | infinity r => exact .zeros ..
    | finite r m e hm => exact .zeros ..
    | _ => exact .refl _

/-- Packing keeps zeros. -/
theorem pack (h : Alike u v) : Alike (Float32.Model.pack u).unpack (Float32.Model.pack v).unpack := by
  rcases h with rfl | ⟨s, t, rfl, rfl⟩
  · exact .refl _
  · cases s <;> cases t
    · exact .refl _
    · exact .zeros .negative .positive
    · exact .zeros .positive .negative
    · exact .refl _

end Alike

/-! ### Binary32 numbers -/

variable {x x' y y' z : Float32}

/-- The bits of what is no number. -/
theorem toBits_of_isNaN (hx : x.toModel.unpack = .notANumber) :
    x.toModel.toBits.toBitVec = UnpackedFloat.packedNaN Format.binary32 := by
  have hunpack : UnpackedFloat.unpack Format.binary32 x.toModel.toBits.toBitVec = .notANumber := hx
  rcases ite_eq_iff.1 hunpack with ⟨hexponent, h⟩ | ⟨-, h⟩
  · rcases ite_eq_iff.1 h with ⟨-, h⟩ | ⟨hmantissa, -⟩
    · cases h
    · exact x.toModel.valid.eq_packedNaN hexponent hmantissa
  · rcases ite_eq_iff.1 h with ⟨-, h⟩ | ⟨-, h⟩
    · rcases dite_eq_iff.1 h with ⟨_, h⟩ | ⟨_, h⟩ <;> cases h
    · cases h

/-- There is one number that is none. -/
theorem eq_of_isNaN (hx : x.toModel.unpack = .notANumber) (hy : y.toModel.unpack = .notANumber) : x = y := by
  have hbits : x.toModel.toBits = y.toModel.toBits :=
    UInt32.toBitVec_inj.1 ((toBits_of_isNaN hx).trans (toBits_of_isNaN hy).symm)
  obtain ⟨⟨_, _⟩⟩ := x
  obtain ⟨⟨_, _⟩⟩ := y
  cases hbits
  rfl

theorem beq_iff : (x == y) = true ↔ x.toModel.unpack.compare y.toModel.unpack = some .eq := by
  change (x.toModel.unpack.compare y.toModel.unpack == some .eq) = true ↔ _
  exact beq_iff_eq

theorem same_iff : Same x y ↔ Alike x.toModel.unpack y.toModel.unpack := by
  constructor
  · rintro (rfl | h)
    · exact .refl _
    · exact .of_compare (beq_iff.1 h)
  · intro h
    by_cases hx : x.toModel.unpack = .notANumber
    · rcases h with h | ⟨s, t, hs, -⟩
      · exact .inl (eq_of_isNaN hx (h ▸ hx))
      · cases hx.symm.trans hs
    · exact .inr (beq_iff.2 ((h.symm.compare_right _).trans (Alike.compare_self hx)))

theorem unpack_zero : (0.0 : Float32).toModel.unpack = .zero .positive := by
  rfl

theorem lt_iff : x < y ↔ x.toModel.unpack.compare y.toModel.unpack = some .lt := by
  change decide ((x.toModel.unpack.compare y.toModel.unpack == some .lt) = true) = true ↔ _
  exact decide_eq_true_iff.trans beq_iff_eq

theorem scalar_le_eq : Scalar.le x y = (x.toModel.unpack.compare y.toModel.unpack).any (·.isLE) := by
  change decide (decide ((x.toModel.unpack.compare y.toModel.unpack).any (·.isLE) = true) = true) = _
  rw [Bool.decide_coe, Bool.decide_coe]

theorem scalar_lt_iff : Scalar.lt x y = true ↔ x < y := decide_eq_true_iff

/-- Whatever is not at most zero is positive, unless it is no number. -/
theorem zero_lt_iff : 0.0 < x ↔ Scalar.le x 0.0 = false ∧ x.isNaN = false := by
  have hnan : x.isNaN = x.toModel.unpack.isNaN := rfl
  rw [lt_iff, scalar_le_eq, unpack_zero, hnan]
  cases x.toModel.unpack with
  | infinity s => cases s <;> decide
  | notANumber => decide
  | zero s => cases s <;> decide
  | finite s m e hm =>
      cases s with
      | positive => exact ⟨fun _ => ⟨rfl, rfl⟩, fun _ => rfl⟩
      | negative => exact iff_of_false (by rintro ⟨⟩) (by rintro ⟨⟨⟩, -⟩)

/-- Numbers that are no zero are told apart. -/
theorem unpack_eq_of_ne_zero (h : Same x y) (hzero : (x == 0.0) = false) :
    x.toModel.unpack = y.toModel.unpack := by
  rcases same_iff.1 h with h | ⟨s, t, hs, -⟩
  · exact h
  · have hx : (x == 0.0) = true := beq_iff.2 (by rw [hs, unpack_zero]; rfl)
    cases hzero.symm.trans hx

namespace Same

theorem refl (x : Float32) : Same x x := .inl rfl

theorem symm (h : Same x y) : Same y x := same_iff.2 (same_iff.1 h).symm

theorem trans (h : Same x y) (h' : Same y z) : Same x z := same_iff.2 ((same_iff.1 h).trans (same_iff.1 h'))

theorem add (hx : Same x x') (hy : Same y y') : Same (x + y) (x' + y') :=
  same_iff.2 (((same_iff.1 hx).add_left _ _).trans ((same_iff.1 hy).add_right _ _)).pack

theorem mul (hx : Same x x') (hy : Same y y') : Same (x * y) (x' * y') :=
  same_iff.2 (((same_iff.1 hx).mul_left _ _).trans ((same_iff.1 hy).mul_right _ _)).pack

/-- Division by numbers that are told apart if they differ. -/
theorem div (hx : Same x x') (hy : y.toModel.unpack = y'.toModel.unpack) : Same (x / y) (x' / y') := by
  have hdiv : Alike (UnpackedFloat.div Format.binary32 x.toModel.unpack y.toModel.unpack)
      (UnpackedFloat.div Format.binary32 x'.toModel.unpack y'.toModel.unpack) := by
    rw [← hy]
    exact (same_iff.1 hx).div_left _ _
  exact same_iff.2 hdiv.pack

theorem compare (hx : Same x x') (hy : Same y y') :
    x.toModel.unpack.compare y.toModel.unpack = x'.toModel.unpack.compare y'.toModel.unpack :=
  ((same_iff.1 hx).compare_left _).trans ((same_iff.1 hy).compare_right _)

theorem isNaN (h : Same x y) : x.isNaN = y.isNaN := (same_iff.1 h).isNaN

theorem le (hx : Same x x') (hy : Same y y') : Scalar.le x y = Scalar.le x' y' := by
  rw [scalar_le_eq, scalar_le_eq, hx.compare hy]

theorem max (hx : Same x x') (hy : Same y y') : Same (Single.max x y) (Single.max x' y') := by
  have hlarger : (y.isNaN || decide (x > y)) = (y'.isNaN || decide (x' > y')) := by
    rw [hy.isNaN]
    simp only [gt_iff_lt, lt_iff, hy.compare hx]
  rw [Single.max, Single.max, hlarger]
  split
  · exact hx
  · exact hy

end Same

/-- What every step of a fold keeps to, the whole fold keeps to. -/
theorem same_foldl {ι : Type} {f f' : Float32 → ι → Float32}
    (hstep : ∀ {x x'}, Same x x' → ∀ i, Same (f x i) (f' x' i)) (h : Same x x') (items : List ι) :
    Same (items.foldl f x) (items.foldl f' x') := by
  induction items generalizing x x' with
  | nil => exact h
  | cons i rest ih => exact ih (hstep h i)

end ArgumentDiagram.Single
