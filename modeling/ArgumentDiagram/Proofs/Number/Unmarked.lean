import ArgumentDiagram.Proofs.Text.Markup
import ArgumentDiagram.Scalar

/-!
The characters of written numbers. Whatever the number, there are digits, a point, a sign and the letters of
`NaN` and `inf`, and nothing that markup would have to escape.
-/

namespace ArgumentDiagram

open Text.Markup

/-- Text that stands in markup as it is. -/
def Unmarked (text : String) : Prop := ∀ c ∈ text.toList, c ∉ marked

instance (text : String) : Decidable (Unmarked text) :=
  List.decidableBAll (fun c => c ∉ marked) text.toList

namespace Unmarked

variable {first second text : String}

theorem append (hfirst : Unmarked first) (hsecond : Unmarked second) : Unmarked (first ++ second) := by
  intro c hmem
  rw [String.toList_append] at hmem
  exact (List.mem_append.1 hmem).elim (hfirst c) (hsecond c)

theorem encode_eq (h : Unmarked text) : encode text.toList = text.toList := encode_of_forall_not_mem h

end Unmarked

theorem unmarked_of_isDigit {text : List Char} (h : ∀ c ∈ text, c.isDigit) : Unmarked (.ofList text) := by
  intro c hmem hmarked
  rw [String.toList_ofList] at hmem
  have hdigit := h c hmem
  simp only [marked, List.mem_cons, List.not_mem_nil, or_false] at hmarked
  rcases hmarked with rfl | rfl | rfl | rfl | rfl <;> exact absurd hdigit (by decide)

theorem isDigit_of_mem_replicate {n : Nat} {c : Char} (hmem : c ∈ List.replicate n '0') : c.isDigit := by
  rw [(List.mem_replicate.1 hmem).2]
  decide

theorem unmarked_toString (n : Nat) : Unmarked (toString n) :=
  unmarked_of_isDigit fun _ hmem => Nat.isDigit_of_mem_toDigits (by decide) (by decide) hmem

theorem unmarked_signedInfinity (negative : Bool) : Unmarked (NumberStyle.signedInfinity negative) := by
  cases negative <;> decide

namespace Binary

theorem unmarked_padded (width n : Nat) : Unmarked (padded width n) := by
  refine unmarked_of_isDigit fun c hmem => ?_
  rcases List.mem_append.1 hmem with hmem | hmem
  · exact isDigit_of_mem_replicate hmem
  · exact Nat.isDigit_of_mem_toDigits (by decide) (by decide) hmem

theorem unmarked_writeFixed (places : Nat) (x : Binary) : Unmarked (x.writeFixed places) := by
  cases x with
  | nan =>
      show Unmarked "NaN"
      decide
  | infinite negative => exact unmarked_signedInfinity negative
  | finite negative mantissa exponent =>
      rw [writeFixed]
      refine (Unmarked.append ?_ (unmarked_toString _)).append ?_
      · cases negative <;> decide
      · split
        · decide
        · exact Unmarked.append (by decide) (unmarked_padded places _)

end Binary

namespace NumberStyle

theorem unmarked_zeros (n : Nat) : Unmarked (zeros n) :=
  unmarked_of_isDigit fun _ hmem => isDigit_of_mem_replicate hmem

theorem unmarked_positionalText (style : NumberStyle) (d : Decimal) : Unmarked (style.positionalText d) := by
  have hdigits : ∀ c ∈ d.digits, c.isDigit :=
    fun c hmem => Nat.isDigit_of_mem_toDigits (by decide) (by decide) hmem
  unfold positionalText
  dsimp only
  split
  · exact (Unmarked.append (by decide) (unmarked_zeros _)).append (unmarked_of_isDigit hdigits)
  · split
    · refine ((unmarked_of_isDigit hdigits).append (unmarked_zeros _)).append ?_
      split <;> decide
    · refine ((unmarked_of_isDigit fun c hmem => ?_).append (by decide)).append (unmarked_of_isDigit fun c hmem => ?_)
      · exact hdigits c (List.mem_of_mem_take hmem)
      · exact hdigits c (List.mem_of_mem_drop hmem)

theorem unmarked_write_plain (format : BinaryFormat) (x : Binary) : Unmarked (plain.write format x) := by
  cases x with
  | nan =>
      show Unmarked "NaN"
      decide
  | infinite negative => exact unmarked_signedInfinity negative
  | finite negative mantissa exponent =>
      refine Unmarked.append ?_ (unmarked_positionalText plain _)
      cases negative <;> decide

end NumberStyle

/-- A number type whose numbers stand in markup as they are. -/
structure UnmarkedNumbers (α : Type) [WrittenScalar α] : Prop where
  plain : ∀ x : α, Unmarked (WrittenScalar.plain x)
  writeFixed : ∀ (places : Nat) (x : α), Unmarked (WrittenScalar.writeFixed places x)

theorem unmarkedNumbers_single : UnmarkedNumbers Float32 where
  plain x := NumberStyle.unmarked_write_plain .single (.ofSingle x)
  writeFixed places x := Binary.unmarked_writeFixed places (.ofSingle x)

end ArgumentDiagram
