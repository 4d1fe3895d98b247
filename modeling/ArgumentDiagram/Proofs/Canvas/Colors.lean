import ArgumentDiagram.Proofs.Canvas.Repaint
import ArgumentDiagram.Proofs.Style.Handout

/-!
Which questions a palette is asked. Painting claims asks for their scopes one after the other, so the palette of a
canvas always stands where some questions have left the colours of its style.
-/

namespace ArgumentDiagram

variable {α : Type} [Scalar α]

theorem Scene.palette_claimsElements {style : Style α} {theme : Theme α}
    (h : style.looks.border = Looks.borderOf theme) (claims : List (Claim α)) (palette : ScopePalette) :
    (claimsElements style claims palette).2 = palette.afterAsking (claims.filterMap (·.metadata.scope)) := by
  induction claims generalizing palette with
  | nil => rfl
  | cons claim rest ih =>
      have hrest : (claimsElements style (claim :: rest) palette).2 =
          (claimsElements style rest (style.looks.border claim palette).2).2 := rfl
      rw [hrest, ih, h]
      cases hscope : claim.metadata.scope with
      | none => simp only [Looks.borderOf_of_no_scope theme hscope, List.filterMap_cons, hscope]
      | some scope =>
          simp only [Looks.borderOf_of_scope theme hscope, List.filterMap_cons, hscope]
          rfl

namespace Canvas

variable {c : Canvas α}

/-- The palette is what is left of the colours of the style after some questions about scopes. -/
def Colored (c : Canvas α) : Prop := ∃ asked, c.palette = c.style.palette.afterAsking asked

theorem colored_draw (hstyle : c.style.Themed) (h : c.Colored) : c.draw.Colored := by
  obtain ⟨theme, htheme⟩ := hstyle
  obtain ⟨asked, hasked⟩ := h
  obtain ⟨painted, hpainted⟩ : ∃ painted, c.draw.palette = c.palette.afterAsking painted :=
    ⟨_, Scene.palette_claimsElements htheme _ c.palette⟩
  refine ⟨asked ++ painted, ?_⟩
  rw [hpainted, hasked, ScopePalette.afterAsking_append, style_draw]

omit [Scalar α] in
theorem colored_fits {c' : Canvas α} (hfits : c' = c ∨ c.Rearranges c') (h : c.Colored) : c'.Colored := by
  rcases hfits with rfl | ⟨anchor, size, rfl⟩ <;> exact h

/-- Only a style with other colours brings in a new palette. -/
theorem colored_updateStyle (edit : Style α → Style α) (h : c.Colored) : (c.updateStyle edit).Colored := by
  have hpalette : (c.updateStyle edit).palette =
      if (edit c.style).scopePalette = c.style.scopePalette then c.palette else (edit c.style).palette := rfl
  have hstyle : (c.updateStyle edit).style = edit c.style := rfl
  obtain ⟨asked, hasked⟩ := h
  rw [Colored, hpalette, hstyle]
  split
  next hsame => exact ⟨asked, by rw [hasked, Style.palette, Style.palette, hsame]⟩
  next => exact ⟨[], rfl⟩

theorem colored_keyDown (key : Key) (shift : Bool) (h : c.Colored) : (c.keyDown key shift).2.Colored := by
  rcases c.keyDown_cases key shift with hkey | hkey | ⟨-, hkey⟩ | ⟨dx, dy, hkey⟩ <;> rw [hkey]
  · exact h
  · exact deleteSelection_induction (fun _ _ h => h) (fun _ h => h) h
  · exact h
  · exact h

theorem colored_perform (c : Canvas α) (operation : CanvasOperation α) (hstyle : c.style.Themed)
    (h : c.Colored) : (c.perform operation).Colored := by
  cases operation with
  | updateStyle edit => exact colored_updateStyle edit h
  | setStyle style => exact colored_updateStyle _ h
  | addRelation sources target kind metadata =>
      rcases c.addRelation_cases sources target kind metadata with h' | ⟨id, g, -, h'⟩ <;> rw [h'] <;> exact h
  | setFocus focused => rcases c.setFocus_cases focused with h' | h' <;> rw [perform, h'] <;> exact h
  | applyLayout => rcases c.applyLayout_cases with h' | ⟨l, -, h'⟩ <;> rw [perform, h'] <;> exact h
  | fit padding => exact colored_fits (c.fit_cases padding) h
  | fitVertically padding => exact colored_fits (c.fitVertically_cases padding) h
  | pointerDown point extend =>
      rcases c.pointerDown_cases point extend with h' | ⟨id, -, -, h'⟩ <;> rw [perform, h'] <;> exact h
  | pointerMove point =>
      rcases c.pointerMove_cases point with ⟨-, cursor, h'⟩ | ⟨press, dragging, dx, dy, -, h'⟩ <;>
        rw [perform, h'] <;> exact h
  | pointerUp point =>
      rcases c.pointerUp_cases point with ⟨-, -, h'⟩ | ⟨-, -, h'⟩ | ⟨-, selected, -, h'⟩ <;>
        rw [perform, h'] <;> exact h
  | keyDown key shift => exact colored_keyDown key shift h
  | frame =>
      rcases c.frame_cases with h' | h' <;> rw [perform, h']
      · exact h
      · exact colored_draw hstyle h
  | draw => exact colored_draw hstyle h
  | _ => exact h

/-- Whatever is done to a canvas, its palette stands where some questions have left the colours of its style. -/
theorem colored_after (surface : Surface α) (container : Size α) {style : Style α} (hstyle : style.Themed)
    {operations : List (CanvasOperation α)} (hoperations : ∀ operation ∈ operations, operation.Themed) :
    ((create surface container style).after operations).Colored := by
  have hstep : ∀ (c : Canvas α) (operation : CanvasOperation α), operation.Themed →
      c.style.Themed ∧ c.Colored → (c.perform operation).style.Themed ∧ (c.perform operation).Colored :=
    fun c operation hoperation h =>
      ⟨c.themed_perform operation hoperation h.1, c.colored_perform operation h.1 h.2⟩
  exact (after_induction hstep hoperations ⟨hstyle, [], rfl⟩).2

end Canvas

end ArgumentDiagram
