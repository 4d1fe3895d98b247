import ArgumentDiagram.Proofs.Geometry.Exact
import Mathlib.Tactic.Ring
import ArgumentDiagram.Drawing.Scene

/-!
Drawing at another scale, in exact arithmetic. Everything in a frame is drawn at the scale of its style, each thing
once: at a scale some times as large, every length and every coordinate is so many times as large, and colours,
texts and the order of the elements are the same. The marks at the ends of relations also depend on the direction of
their lines, which the angle of a direction is told by; the lines themselves do not.
-/

namespace ArgumentDiagram

section

variable {α : Type} [Scalar α]

def Font.scaled (font : Font α) (factor : α) : Font α := { font with size := font.size * factor }

/-- An element some times as large, and as many times as far from the origin. -/
def Element.scaled (factor : α) : Element α → Element α
  | .fillRect rect color => .fillRect (rect.scaled factor) color
  | .strokeRect rect color lineWidth => .strokeRect (rect.scaled factor) color (lineWidth * factor)
  | .strokePath path color lineWidth => .strokePath (path.scaled factor) color (lineWidth * factor)
  | .fillPath path color => .fillPath (path.scaled factor) color
  | .text content start font color => .text content (start.scaled factor) (font.scaled factor) color

omit [Scalar α] in
def Style.atScale (style : Style α) (scale : α) : Style α := { style with scale := scale }

omit [Scalar α] in
def Scene.atScale (s : Scene α) (scale : α) : Scene α := { s with style := s.style.atScale scale }

/-- What is drawn over the relations, and the palette that is left. -/
def Scene.overlay (s : Scene α) (palette : ScopePalette) : List (Element α) × ScopePalette :=
  let painted := claimsElements s.style ((paintOrder s.graph s.selection).filterMap s.graph.claim?) palette
  (painted.1 ++ s.selectionElements ++ s.outlineElements, painted.2)

theorem Scene.elements_eq (s : Scene α) (palette : ScopePalette) :
    s.elements palette = (s.relationElements ++ (s.overlay palette).1, (s.overlay palette).2) := by
  show (s.relationElements ++ _ ++ _ ++ _, _) = (s.relationElements ++ (_ ++ _ ++ _), _)
  rw [List.append_assoc, List.append_assoc, List.append_assoc]
  rfl

end

variable {K : Type} [Field K] [LinearOrder K] [IsStrictOrderedRing K] [FloorSemiring K] [Angles K]

section

omit [IsStrictOrderedRing K]

variable (k f : K)

theorem Point.scaled_mul (p : Point K) : p.scaled (k * f) = (p.scaled k).scaled f := by
  rw [scaled, scaled, scaled, mul_assoc, mul_assoc]

theorem Rect.scaled_mul (r : Rect K) : r.scaled (k * f) = (r.scaled k).scaled f := by
  rw [scaled, scaled, scaled, mul_assoc, mul_assoc, mul_assoc, mul_assoc]

end

namespace Scene

section

omit [IsStrictOrderedRing K]

variable (s : Scene K) (style : Style K) (k f : K)

theorem textElements_atScale (claim : Claim K) :
    textElements (style.atScale (k * f)) claim =
      (textElements (style.atScale k) claim).map (Element.scaled f) := by
  rw [textElements, textElements, List.map_map]
  refine List.map_congr_left fun ⟨content, line⟩ _ => ?_
  have hstart : baseline (style.atScale (k * f)) claim line = (baseline (style.atScale k) claim line).scaled f := by
    rw [baseline, baseline, Point.scaled]
    congr 1
    · exact mul_right_comm ..
    · exact mul_right_comm ..
  have hfont : fontOf (style.atScale (k * f)) claim = (fontOf (style.atScale k) claim).scaled f := by
    rw [fontOf, fontOf, Font.scaled]
    congr 1
    exact mul_right_comm ..
  show Element.text content (baseline (style.atScale (k * f)) claim line) (fontOf (style.atScale (k * f)) claim) _ = _
  rw [hstart, hfont]
  rfl

/-- The palette is used up in the same way. -/
theorem claimElements_atScale (claim : Claim K) (palette : ScopePalette) :
    claimElements (style.atScale (k * f)) claim palette =
      ((claimElements (style.atScale k) claim palette).1.map (Element.scaled f),
        (claimElements (style.atScale k) claim palette).2) := by
  have hrect : claim.rect.scaled (style.atScale (k * f)).scale = (claim.rect.scaled k).scaled f :=
    Rect.scaled_mul k f claim.rect
  rw [claimElements, hrect, textElements_atScale]
  rfl

theorem claimsElements_atScale (claims : List (Claim K)) (palette : ScopePalette) :
    claimsElements (style.atScale (k * f)) claims palette =
      ((claimsElements (style.atScale k) claims palette).1.map (Element.scaled f),
        (claimsElements (style.atScale k) claims palette).2) := by
  induction claims generalizing palette with
  | nil => rfl
  | cons claim rest ih =>
      rw [claimsElements, claimElements_atScale]
      dsimp only
      rw [ih, claimsElements, List.map_append]

theorem selectionElements_atScale :
    (s.atScale (k * f)).selectionElements = (s.atScale k).selectionElements.map (Element.scaled f) := by
  rw [selectionElements, selectionElements, List.map_map]
  refine List.map_congr_left fun claim _ => ?_
  show Element.strokeRect ((claim.rect.inflate 2.0).scaled (k * f)) _ (3.0 * (k * f)) = _
  rw [Rect.scaled_mul, ← mul_assoc]
  rfl

theorem outlineElement_atScale (box : PlacedBox K) :
    outlineElement (k * f) box = (outlineElement k box).scaled f := by
  rw [outlineElement.eq_def, outlineElement.eq_def]
  cases box.kind with
  | container direction =>
      dsimp only
      rw [Rect.scaled_mul]
      rfl
  | spacer =>
      dsimp only
      rw [Rect.scaled_mul]
      rfl
  | claim id =>
      dsimp only
      rw [Rect.scaled_mul]
      rfl

theorem outlineElements_atScale :
    (s.atScale (k * f)).outlineElements = (s.atScale k).outlineElements.map (Element.scaled f) := by
  rw [outlineElements, outlineElements]
  show (if s.style.debugLayout then (s.outline.getD []).map (outlineElement (k * f)) else []) =
    (if s.style.debugLayout then (s.outline.getD []).map (outlineElement k) else []).map (Element.scaled f)
  split
  · rw [List.map_map]
    exact List.map_congr_left fun box _ => outlineElement_atScale k f box
  · rfl

theorem overlay_atScale (palette : ScopePalette) :
    (s.atScale (k * f)).overlay palette =
      (((s.atScale k).overlay palette).1.map (Element.scaled f), ((s.atScale k).overlay palette).2) := by
  have hpainted := claimsElements_atScale s.style k f
    ((paintOrder s.graph s.selection).filterMap s.graph.claim?) palette
  rw [overlay, selectionElements_atScale, outlineElements_atScale]
  show ((claimsElements (s.style.atScale (k * f))
      ((paintOrder s.graph s.selection).filterMap s.graph.claim?) palette).1 ++ _ ++ _,
    (claimsElements (s.style.atScale (k * f))
      ((paintOrder s.graph s.selection).filterMap s.graph.claim?) palette).2) = _
  rw [hpainted, overlay, List.map_append, List.map_append]
  rfl

/-- The ends of a line move away from the origin like everything else. -/
theorem ends?_atScale (r : Relation) : (s.atScale (k * f)).ends? r =
    ((s.atScale k).ends? r).map fun ends => (ends.1.scaled f, ends.2.scaled f) := by
  rw [ends?, ends?]
  show (s.graph.boxOf (.claim r.source)).bind _ = ((s.graph.boxOf (.claim r.source)).bind _).map _
  cases s.graph.boxOf (.claim r.source) with
  | none => rfl
  | some source =>
      show (s.graph.boxOf r.target).bind _ = ((s.graph.boxOf r.target).bind _).map _
      cases s.graph.boxOf r.target with
      | none => rfl
      | some target =>
          show some ((target.attachment source).scaled (k * f), (source.attachment target).scaled (k * f)) = _
          rw [Point.scaled_mul, Point.scaled_mul]
          rfl

end

end Scene

/-! ### Marks -/

/-- The direction of a line does not depend on how large the line is drawn. -/
def KeepsDirections (factor : K) : Prop := ∀ y x : K, Angles.atan2 (y * factor) (x * factor) = Angles.atan2 y x

section

omit [IsStrictOrderedRing K]

variable {f : K} (start tip : Point K) (k radius : K)

theorem Point.direction_scaled (h : KeepsDirections f) :
    (start.scaled f).direction (tip.scaled f) = start.direction tip := by
  have hrise : tip.y * f - start.y * f = (tip.y - start.y) * f := (sub_mul ..).symm
  have hrun : tip.x * f - start.x * f = (tip.x - start.x) * f := (sub_mul ..).symm
  show Angles.atan2 (tip.y * f - start.y * f) (tip.x * f - start.x * f) =
    Angles.atan2 (tip.y - start.y) (tip.x - start.x)
  rw [hrise, hrun, h]

theorem Point.polarOffset_scaled (p : Point K) (distance angle f : K) :
    (p.scaled f).polarOffset (distance * f) angle = (p.polarOffset distance angle).scaled f := by
  have hleg : ∀ x c : K, x * f + distance * f * c = (x + distance * c) * f := fun x c => by ring
  exact congrArg₂ Point.mk (hleg ..) (hleg ..)

theorem Path.retractedEnd_scaled (h : KeepsDirections f) :
    retractedEnd (radius * f) (start.scaled f) (tip.scaled f) = (retractedEnd radius start tip).scaled f := by
  rw [retractedEnd, retractedEnd, Point.direction_scaled _ _ h, ← neg_mul, Point.polarOffset_scaled]

theorem Path.arrow_scaled (h : KeepsDirections f) :
    arrow (radius * f) (start.scaled f) (tip.scaled f) = (arrow radius start tip).scaled f := by
  simp only [arrow, Point.direction_scaled _ _ h, ← neg_mul, Point.polarOffset_scaled]
  rfl

theorem Path.cross_scaled (h : KeepsDirections f) :
    cross (radius * f) (start.scaled f) (tip.scaled f) = (cross radius start tip).scaled f := by
  simp only [cross, Point.direction_scaled _ _ h, ← mul_assoc, Point.polarOffset_scaled]
  rfl

namespace Scene

theorem arrow_atScale (style : Style K) (kind : Option RelationKind) (color : String) (h : KeepsDirections f) :
    arrow (style.atScale (k * f)) kind color (start.scaled f) (tip.scaled f) =
      (arrow (style.atScale k) kind color start tip).map (Element.scaled f) := by
  have hradius : k * f * style.arrowRadius = k * style.arrowRadius * f := mul_right_comm ..
  have hcross : 0.75 * (k * f) * style.arrowRadius = 0.75 * k * style.arrowRadius * f := by ring
  have hwidth : 2.0 * (k * f) = 2.0 * k * f := (mul_assoc ..).symm
  cases kind with
  | none => rfl
  | some kind =>
      cases kind with
      | support =>
          show [Element.strokePath (.line _ (Path.retractedEnd (k * f * style.arrowRadius) _ _)) _ _,
            .fillPath (.arrow (k * f * style.arrowRadius) _ _) _] = _
          rw [hradius, Path.retractedEnd_scaled _ _ _ h, Path.arrow_scaled _ _ _ h]
          rfl
      | attack =>
          show [Element.strokePath (.line _ (Path.retractedEnd (k * f * style.arrowRadius) _ _)) _ _,
            .strokePath (.cross (0.75 * (k * f) * style.arrowRadius) _ _) _ (2.0 * (k * f))] = _
          rw [hradius, hcross, hwidth, Path.retractedEnd_scaled _ _ _ h, Path.cross_scaled _ _ _ h]
          rfl

theorem relationElements_atScale (s : Scene K) (h : KeepsDirections f) :
    (s.atScale (k * f)).relationElements = (s.atScale k).relationElements.map (Element.scaled f) := by
  rw [relationElements, relationElements, List.map_flatMap]
  refine List.flatMap_congr fun r _ => ?_
  rw [ends?_atScale]
  cases (s.atScale k).ends? r with
  | none => rfl
  | some ends => exact arrow_atScale ends.1 ends.2 k s.style r.kind _ h

/-- A whole frame at another scale, in the same order. -/
theorem elements_atScale (s : Scene K) (palette : ScopePalette) (h : KeepsDirections f) :
    ((s.atScale (k * f)).elements palette).1 = ((s.atScale k).elements palette).1.map (Element.scaled f) := by
  rw [elements_eq, elements_eq, relationElements_atScale k s h, overlay_atScale, List.map_append]

end Scene

end

end ArgumentDiagram
