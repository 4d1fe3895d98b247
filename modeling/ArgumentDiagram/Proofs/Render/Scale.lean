import ArgumentDiagram.Proofs.Geometry.Diamond
import ArgumentDiagram.Proofs.Drawing.Scaling
import ArgumentDiagram.Proofs.Render.Fitted

/-!
Pictures of scripts at several scales, in exact arithmetic. A text is measured at the scale of the picture,
and what is measured is divided by the scale again, so with the estimate, which grows with the font, claims
are as large at one scale as at another. Layout and fitting do not look at the scale, so the graph is the
same, and only drawing is left.

Main statement: `Canvas.scaled_of_script`.
-/

namespace ArgumentDiagram

/-- The same options with another scale. -/
def RenderOptions.atScale {α : Type} (o : RenderOptions α) (scale : α) : RenderOptions α :=
  { o with config := { o.config with render := { o.config.render with scale := scale } } }

section

variable {K : Type} [Field K] [LinearOrder K] [IsStrictOrderedRing K] {k : K}

/-- The largest of some lengths grows with them. -/
theorem foldl_max_mul (lengths : List K) (init : K) (hk : 0 ≤ k) :
    (lengths.map (· * k)).foldl max (init * k) = lengths.foldl max init * k := by
  rw [List.foldl_map]
  exact List.foldl_hom (· * k) fun most length => (max_mul_of_nonneg most length hk).symm

end

variable {K : Type} [Field K] [LinearOrder K] [FloorSemiring K] [Angles K]
  {o : RenderOptions K} {g : Graph K} {l : Layout K} {k k₁ k₂ : K}

/-- The estimate grows with the font. -/
theorem TextWidth.estimate_mul (text : String) (k size : K) :
    estimate text (k * size) = estimate text size * k := by
  show _ * (k * size) * _ = _ * size * _ * k
  rw [mul_left_comm, mul_assoc, mul_comm]

variable [IsStrictOrderedRing K]

namespace RenderOptions

/-- The scale that a text is measured at is divided by again. -/
theorem textSize_atScale (hmeasure : o.measure = .estimate) (hk : 0 < k) (lines : List String) :
    (o.atScale k).textSize lines =
      ⟨(lines.map (TextWidth.estimate · o.config.theme.fontSize)).foldl max 0.0 + 2.0 * o.config.theme.claimPadding,
        lines.length * o.config.theme.lineHeight + 2.0 * o.config.theme.claimPadding⟩ := by
  have hwidths : lines.map ((o.atScale k).canvas.surface.measureText ·
      ⟨"", k * o.config.theme.fontSize, o.config.theme.fontFamily⟩) =
        (lines.map (TextWidth.estimate · o.config.theme.fontSize)).map (· * k) := by
    have hsurface : (o.atScale k).canvas.surface.measure = .estimate := hmeasure
    rw [List.map_map]
    refine List.map_congr_left fun text _ => ?_
    rw [Surface.measureText, hsurface]
    exact TextWidth.estimate_mul ..
  have hwidest : ∀ widths : List K, (widths.map (· * k)).foldl max 0.0 / k = widths.foldl max 0.0 := by
    intro widths
    calc (widths.map (· * k)).foldl max 0.0 / k
        = (widths.map (· * k)).foldl max (0.0 * k) / k := by rw [exact_zero, zero_mul]
      _ = widths.foldl max 0.0 * k / k := by rw [foldl_max_mul widths 0.0 hk.le]
      _ = widths.foldl max 0.0 := mul_div_cancel_right₀ _ hk.ne'
  rw [← hwidest, ← hwidths]
  rfl

theorem measured_atScale (hmeasure : o.measure = .estimate) (h₁ : 0 < k₁) (h₂ : 0 < k₂) (g : Graph K) :
    (o.atScale k₂).measured g = (o.atScale k₁).measured g := by
  have hsize : (o.atScale k₂).textSize = (o.atScale k₁).textSize := by
    funext lines
    rw [textSize_atScale hmeasure h₂, textSize_atScale hmeasure h₁]
  rw [measured, measured, hsize]

end RenderOptions

/-! ### The picture -/

namespace Canvas

/-- Fitting moves the claims by what the graph and the padding say. -/
theorem graph_fit_congr {α : Type} [Scalar α] {c c' : Canvas α} (h : c'.graph = c.graph) (padding : α) :
    (c'.fit padding).graph = (c.fit padding).graph := by
  rw [fit, fit, h]
  cases c.graph.bounds with
  | none => exact h
  | some bounds => rfl

theorem scene_arranged {α : Type} [Scalar α] (o : RenderOptions α) (g : Graph α) (l : Layout α) :
    (arranged o g l).scene = ⟨(arranged o g l).graph, o.style, [], false, some l.outline⟩ := by
  rw [arranged, fit]
  split
  · rfl
  · rfl

/-- Before it is drawn, a picture knows of its scale by its style only. -/
theorem scene_arranged_atScale (hmeasure : o.measure = .estimate) (h₁ : 0 < k₁) (h₂ : 0 < k₂) (g : Graph K)
    (l : Layout K) :
    (arranged (o.atScale k₂) g l).scene = (arranged (o.atScale k₁) g l).scene.atScale k₂ := by
  have hgraph : (arranged (o.atScale k₂) g l).graph = (arranged (o.atScale k₁) g l).graph := by
    refine graph_fit_congr ?_ o.config.render.padding
    show l.apply ((o.atScale k₂).measured g) = l.apply ((o.atScale k₁).measured g)
    rw [RenderOptions.measured_atScale hmeasure h₁ h₂]
  rw [scene_arranged, scene_arranged, hgraph]
  rfl

/-- A picture shows what is arranged, painted with all colours of the palette at hand. -/
theorem scene_picture (hg : g.Fresh) (hbuild : Layout.build (o.measured g) o.config.layout = .ok l) :
    (picture o g l).scene = (arranged o g l).scene ∧ (picture o g l).surface.elements =
      ((picture o g l).scene.elements (picture o g l).style.palette).1 := by
  have hscene : (picture o g l).scene = (arranged o g l).scene := by
    rw [picture, scene_draw, measureClaims_arranged hg hbuild]
  refine ⟨hscene, ?_⟩
  rw [hscene, style_picture, ← palette_arranged o g l, picture, surface_draw, measureClaims_arranged hg hbuild]

/-- One picture is another one some times as large: the graph is the same, the ends of each relation are as many
times as far from the origin, and so is all that is drawn over the relations, in the same order. Where the direction
of a line does not depend on how large it is drawn, the marks of the relations are no exception. -/
structure Enlarges (factor : K) (small large : Canvas K) : Prop where
  graph : large.graph = small.graph
  ends? : ∀ r, large.scene.ends? r =
    (small.scene.ends? r).map fun ends => (ends.1.scaled factor, ends.2.scaled factor)
  overlay : let overlay := (small.scene.overlay small.style.palette).1
    small.surface.elements = small.scene.relationElements ++ overlay ∧
      large.surface.elements = large.scene.relationElements ++ overlay.map (Element.scaled factor)
  elements : KeepsDirections factor → large.surface.elements = small.surface.elements.map (Element.scaled factor)

omit [IsStrictOrderedRing K] in
theorem enlarges_of_scene {small large : Canvas K} {factor : K}
    (hscene : large.scene = small.scene.atScale (small.style.scale * factor))
    (hsmall : small.surface.elements = (small.scene.elements small.style.palette).1)
    (hlarge : large.surface.elements = (large.scene.elements large.style.palette).1) :
    Enlarges factor small large := by
  have hpalette : large.style.palette = small.style.palette :=
    (congrArg (fun s : Scene K => s.style.palette) hscene :)
  rw [hpalette] at hlarge
  constructor
  case graph => exact (congrArg Scene.graph hscene :)
  case ends? =>
    intro r
    rw [hscene, Scene.ends?_atScale]
    rfl
  case overlay =>
    rw [hsmall, hlarge, Scene.elements_eq, Scene.elements_eq, hscene, Scene.overlay_atScale]
    exact ⟨rfl, rfl⟩
  case elements =>
    intro hkeeps
    rw [hsmall, hlarge, hscene, Scene.elements_atScale _ _ _ hkeeps]
    rfl

theorem enlarges_picture (hmeasure : o.measure = .estimate) (h₁ : 0 < k₁) (h₂ : 0 < k₂) (hg : g.Fresh)
    (hbuild : Layout.build ((o.atScale k₁).measured g) o.config.layout = .ok l) :
    Enlarges (k₂ / k₁) (picture (o.atScale k₁) g l) (picture (o.atScale k₂) g l) := by
  have hbuild' : Layout.build ((o.atScale k₂).measured g) o.config.layout = .ok l := by
    rw [RenderOptions.measured_atScale hmeasure h₁ h₂, hbuild]
  obtain ⟨hscene, helements⟩ := scene_picture (o := o.atScale k₁) hg hbuild
  obtain ⟨hscene', helements'⟩ := scene_picture (o := o.atScale k₂) hg hbuild'
  have hscale : (picture (o.atScale k₁) g l).style.scale = k₁ := by
    rw [style_picture]
    rfl
  refine enlarges_of_scene ?_ helements helements'
  rw [hscale, mul_div_cancel₀ k₂ h₁.ne', hscene', scene_arranged_atScale hmeasure h₁ h₂, hscene]

/-- **Pictures at two scales.** A script has a picture at one scale if it has one at any other, and else it is
refused with the same error. The two pictures hold the same graph, with the same places and sizes, and the one
is as many times as large as the other as its scale is: each box, each line of text, its font and each end of
a relation, in the same order. -/
theorem scaled_of_script (hmeasure : o.measure = .estimate) (h₁ : 0 < k₁) (h₂ : 0 < k₂) (script : Script) :
    (∃ e, ofScript script (o.atScale k₁) = .error e ∧ ofScript script (o.atScale k₂) = .error e) ∨
      ∃ small large, ofScript script (o.atScale k₁) = .ok small ∧ ofScript script (o.atScale k₂) = .ok large ∧
        Enlarges (k₂ / k₁) small large := by
  rw [ofScript_eq, ofScript_eq]
  cases hload : script.load (.empty : Graph K) with
  | error e => exact .inl ⟨e, rfl, rfl⟩
  | ok loaded =>
      obtain ⟨vars, g⟩ := loaded
      have hsame := RenderOptions.measured_atScale hmeasure h₁ h₂ g
      show (∃ e, (Layout.build ((o.atScale k₁).measured g) o.config.layout).map _ = .error e ∧
          (Layout.build ((o.atScale k₂).measured g) o.config.layout).map _ = .error e) ∨
        ∃ small large, (Layout.build ((o.atScale k₁).measured g) o.config.layout).map _ = .ok small ∧
          (Layout.build ((o.atScale k₂).measured g) o.config.layout).map _ = .ok large ∧ _
      rw [hsame]
      cases hbuild : Layout.build ((o.atScale k₁).measured g) o.config.layout with
      | error e => exact .inl ⟨e, rfl, rfl⟩
      | ok l =>
          exact .inr ⟨_, _, rfl, rfl, enlarges_picture hmeasure h₁ h₂ (Script.fresh_of_load hload) hbuild⟩

theorem scaled_of_script_of_supported :
    let o : RenderOptions ℚ := .classic .estimate
    (o.measure = .estimate ∧ (0 : ℚ) < 1 ∧ (0 : ℚ) < 2) ∧
    ∃ small large, ofScript supportedScript (o.atScale 1) = .ok small ∧
      ofScript supportedScript (o.atScale 2) = .ok large ∧ Enlarges 2 small large ∧
      large.surface.elements = small.surface.elements.map (Element.scaled 2) := by
  intro o
  have hmeasure : o.measure = .estimate := rfl
  obtain ⟨vars, g, l, hload, hbuild⟩ := exists_build_supported (o.atScale 1)
  refine ⟨⟨hmeasure, one_pos, two_pos⟩, ?_⟩
  rcases scaled_of_script hmeasure one_pos two_pos supportedScript with
    ⟨e, herror, -⟩ | ⟨small, large, hsmall, hlarge, h⟩
  · cases herror.symm.trans (ofScript_of_layout hload hbuild)
  · rw [div_one] at h
    exact ⟨small, large, hsmall, hlarge, h, h.elements (Diamond.atan2_mul two_pos)⟩

end Canvas

end ArgumentDiagram
