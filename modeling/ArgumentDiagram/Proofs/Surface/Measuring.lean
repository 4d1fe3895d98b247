import ArgumentDiagram.Canvas.Basic
import ArgumentDiagram.Proofs.Number.SignOfZero

/-!
What the size of a text depends on. The numbers that a font and a style give are only ever added, multiplied,
compared and divided by, so styles whose text metrics agree give all texts the same size, up to the sign of
zero: a scale that is not zero has but one way to be written.
-/

open ArgumentDiagram.Single (Same)

namespace ArgumentDiagram

namespace TextWidth

variable {size size' : Float32}

theorem same_estimate (h : Same size size') (text : String) : Same (estimate text size) (estimate text size') :=
  ((Same.refl _).mul h).mul (.refl _)

theorem same_glyphWidth (h : Same size size') (unitsPerEm : Nat) (advance : Option Nat) :
    Same (glyphWidth unitsPerEm size advance) (glyphWidth unitsPerEm size' advance) := by
  match advance with
  | none => exact h.mul (.refl _)
  | some 0 => exact h.mul (.refl _)
  | some (units + 1) => exact (Same.refl _).mul (h.div rfl)

theorem same_inFace (h : Same size size') (face : Face) (text : String) :
    Same (inFace face text size) (inFace face text size') := by
  rw [inFace, inFace, sum, sum, List.foldl_map, List.foldl_map]
  refine Same.max (Single.same_foldl (fun hsum c => ?_) (.refl _) _) (.refl _)
  exact hsum.add (same_glyphWidth h ..)

theorem isFlat_eq (h : Same size size') (text : String) : isFlat text size = isFlat text size' := by
  rw [isFlat, isFlat, h.le (.refl _)]

theorem same_ofText (h : Same size size') (book : FontBook) (text families : String) :
    Same (ofText book text size families) (ofText book text size' families) := by
  rw [ofText, ofText, measured, measured, isFlat_eq h]
  split
  · rw [Option.getD_some, Option.getD_some]
    exact .refl _
  · cases book.select (FontFamily.ofList families.toList) with
    | none => exact same_estimate h text
    | some face => exact same_inFace h face text

end TextWidth

theorem Surface.same_measureText (s : Surface Float32) (text : String) {font font' : Font Float32}
    (hsize : Same font.size font'.size) (hfamily : font.family = font'.family) :
    Same (s.measureText text font) (s.measureText text font') := by
  rw [measureText, measureText]
  cases s.measure with
  | fonts book => exact hfamily ▸ TextWidth.same_ofText hsize book text font.family
  | estimate => exact TextWidth.same_estimate hsize text

/-- The same extents, where the two zeros count as one. -/
def Size.Same (a b : Size Float32) : Prop := Single.Same a.width b.width ∧ Single.Same a.height b.height

instance (a b : Size Float32) : Decidable (a.Same b) := inferInstanceAs (Decidable (_ ∧ _))

namespace Size.Same

variable {a b c : Size Float32}

theorem refl (a : Size Float32) : a.Same a := ⟨.refl _, .refl _⟩

theorem symm (h : a.Same b) : b.Same a := ⟨h.1.symm, h.2.symm⟩

theorem trans (h : a.Same b) (h' : b.Same c) : a.Same c := ⟨h.1.trans h'.1, h.2.trans h'.2⟩

end Size.Same

namespace Canvas

/-- Measuring depends on how a surface measures, not on what is drawn on it. -/
theorem textSize_eq_of_measure {α : Type} [Scalar α] {s s' : Surface α} (h : s'.measure = s.measure)
    (style : Style α) : textSize s' style = textSize s style := by
  have htext : s'.measureText = s.measureText := by
    funext text font
    rw [Surface.measureText, Surface.measureText, h]
  funext lines
  rw [textSize, textSize, htext]

/-- Styles whose text metrics agree give a text the same size. -/
theorem same_textSize_of_agree {style style' : Style Float32}
    (hagree : style'.textMetrics.agree style.textMetrics = true) (hscale : Scalar.beq style.scale 0.0 = false)
    (s : Surface Float32) (lines : List String) :
    (textSize s style' lines).Same (textSize s style lines) := by
  simp only [TextMetrics.agree, Style.textMetrics, Bool.and_eq_true, beq_iff_eq] at hagree
  obtain ⟨⟨⟨⟨hscales, hpadding⟩, hfontSize⟩, hlineHeight⟩, hfamily⟩ := hagree
  replace hscales : Same style'.scale style.scale := .inr hscales
  replace hpadding : Same style'.padding style.padding := .inr hpadding
  have hunpack : style'.scale.toModel.unpack = style.scale.toModel.unpack :=
    (Single.unpack_eq_of_ne_zero hscales.symm hscale).symm
  have hfont : Same (style'.scale * style'.fontSize) (style.scale * style.fontSize) := hscales.mul (.inr hfontSize)
  have hinside : Same (2.0 * style'.padding) (2.0 * style.padding) := (Same.refl _).mul hpadding
  rw [textSize, textSize, List.foldl_map, List.foldl_map]
  refine ⟨Same.add (Same.div (Single.same_foldl (fun hwidest line => ?_) (.refl _) _) hunpack) hinside, ?_⟩
  · exact hwidest.max (s.same_measureText line hfont hfamily)
  · exact ((Same.refl _).mul (.inr hlineHeight)).add hinside

end Canvas

end ArgumentDiagram
