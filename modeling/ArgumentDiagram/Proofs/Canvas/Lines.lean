import ArgumentDiagram.Proofs.Geometry.Hull
import ArgumentDiagram.Proofs.Canvas.Repaint
import ArgumentDiagram.Proofs.Canvas.Sizes
import ArgumentDiagram.Proofs.Drawing.Marks

/-!
Lines of text in their boxes, in exact arithmetic. A claim is as wide as its widest line and as high as all of them,
inside the padding, and its lines are painted from where the padding ends. The size may be older than the style in
force, but then the two styles agree on all that sizes depend on. Main statement: so no line of text leaves the box
of its claim, and beside it the padding is kept.
-/

namespace ArgumentDiagram

variable {K : Type} [Field K] [LinearOrder K] [FloorSemiring K] [Angles K]

/-- A line of text stands in a box: away from the left side by a margin, from the right side by at least as
much, and with its baseline between the top and the bottom. -/
structure Rect.HoldsLine (box : Rect K) (margin width : K) (start : Point K) : Prop where
  left : start.x = box.x + margin
  right : start.x + width + margin ≤ box.right
  top : box.y ≤ start.y
  bottom : start.y ≤ box.bottom

namespace Canvas

variable {style style' : Style K} {surface : Surface K}

/-- In exact arithmetic numbers that compare as equal are the same. -/
theorem textSize_eq_of_agree (hagree : style'.textMetrics.agree style.textMetrics = true) (surface : Surface K) :
    textSize surface style' = textSize surface style := by
  simp only [TextMetrics.agree, Style.textMetrics, Bool.and_eq_true, beq_iff_eq, exact_beq] at hagree
  obtain ⟨⟨⟨⟨hscale, hpadding⟩, hfontSize⟩, hlineHeight⟩, hfamily⟩ := hagree
  funext lines
  rw [textSize, textSize, hscale, hpadding, hfontSize, hlineHeight, hfamily]

/-- Each claim has no size or that of its text in the style in force. -/
def ExactSizes (c : Canvas K) : Prop :=
  c.graph.Sized fun lines known => known = textSize c.surface c.style lines

variable {c : Canvas K}

theorem exactSizes_perform (c : Canvas K) (operation : CanvasOperation K) (hoperation : operation.WritesNoSize)
    (h : c.ExactSizes) : (c.perform operation).ExactSizes := by
  rw [ExactSizes, textSize_eq_of_measure (c.measure_perform hoperation)]
  refine sized_perform (fun style lines known => known = textSize c.surface style lines) (fun _ => rfl)
    (fun style hagree lines known hknown => ?_) hoperation h
  rw [hknown, textSize_eq_of_agree hagree]

/-- Whatever is drawn has the size of its text. -/
theorem ExactSizes.size?_draw (h : c.ExactSizes) {id : ClaimId} {claim : Claim K}
    (hclaim : c.draw.graph.claim? id = some claim) :
    claim.placement.size? = some (textSize c.surface c.style claim.text) := by
  obtain ⟨known, hknown, rfl⟩ := h.exists_of_measureClaims (fun _ => rfl) hclaim
  exact hknown

end Canvas

variable [IsStrictOrderedRing K] {surface : Surface K} {style : Style K} {claim : Claim K} {content : String}
  {line : Nat}

/-- No line is wider than the size of its text leaves room for, as fonts of one size and family measure alike. -/
theorem Canvas.measureText_le (hscale : 0 < style.scale) {lines : List String} (hmem : content ∈ lines) :
    surface.measureText content (Scene.fontOf style claim) + 2 * (style.scale * style.padding) ≤
      (textSize surface style lines).width * style.scale := by
  let font : Font K := ⟨"", style.scale * style.fontSize, style.fontFamily⟩
  let widest := (lines.map (surface.measureText · font)).foldl max 0.0
  have hwidest : surface.measureText content font ≤ widest :=
    (isGreatest_foldl_max id (0.0 : K) (lines.map (surface.measureText · font))).2
      (.inr ⟨_, List.mem_map_of_mem hmem, rfl⟩)
  have hwidth : (textSize surface style lines).width = widest / style.scale + 2 * style.padding := by
    rw [← exact_two]
    rfl
  calc surface.measureText content font + 2 * (style.scale * style.padding)
      ≤ widest + 2 * (style.scale * style.padding) := add_le_add_left hwidest _
    _ = (widest / style.scale + 2 * style.padding) * style.scale := by
      rw [add_mul, div_mul_cancel₀ _ hscale.ne']
      ring
    _ = (textSize surface style lines).width * style.scale := by rw [hwidth]

/-- All lines are as high as their text. -/
theorem Canvas.height_textSize (lines : List String) :
    (textSize surface style lines).height = lines.length * style.lineHeight + 2 * style.padding := by
  rw [← exact_two]
  rfl

theorem Scene.holdsLine_baseline (hscale : 0 < style.scale) (hpadding : 0 ≤ style.padding)
    (hlineHeight : 0 ≤ style.lineHeight)
    (hsize : claim.placement.size? = some (Canvas.textSize surface style claim.text))
    (hline : claim.text[line]? = some content) :
    (claim.rect.scaled style.scale).HoldsLine (style.scale * style.padding)
      (surface.measureText content (fontOf style claim)) (baseline style claim line) := by
  have hwidth : surface.measureText content (fontOf style claim) + 2 * (style.scale * style.padding) ≤
      (Canvas.textSize surface style claim.text).width * style.scale :=
    Canvas.measureText_le hscale (List.mem_of_getElem? hline)
  have hcount : ((line + 1 : ℕ) : K) ≤ claim.text.length :=
    Nat.cast_le.2 (List.getElem?_eq_some_iff.1 hline).1
  have hlines : 0 ≤ ((line + 1 : ℕ) : K) * style.lineHeight := mul_nonneg (Nat.cast_nonneg _) hlineHeight
  have hbelow : ((line + 1 : ℕ) : K) * style.lineHeight ≤ claim.text.length * style.lineHeight :=
    mul_le_mul_of_nonneg_right hcount hlineHeight
  have hbaseline : (baseline style claim line).y =
      style.scale * (claim.placement.y + style.padding / 2 + (line + 1 : ℕ) * style.lineHeight) := by
    rw [← exact_two]
    rfl
  rw [Claim.rect_of_size? hsize]
  constructor
  case left =>
    show style.scale * (claim.placement.x + style.padding) =
      claim.placement.x * style.scale + style.scale * style.padding
    ring
  case right =>
    show style.scale * (claim.placement.x + style.padding) + surface.measureText content (fontOf style claim) +
      style.scale * style.padding ≤ claim.placement.x * style.scale +
        (Canvas.textSize surface style claim.text).width * style.scale
    linarith
  case top =>
    rw [hbaseline]
    show claim.placement.y * style.scale ≤ _
    rw [mul_comm]
    exact mul_le_mul_of_nonneg_left (by linarith) hscale.le
  case bottom =>
    rw [hbaseline]
    show _ ≤ claim.placement.y * style.scale + (Canvas.textSize surface style claim.text).height * style.scale
    rw [← add_mul, mul_comm style.scale, Canvas.height_textSize]
    exact mul_le_mul_of_nonneg_right (by linarith) hscale.le

/-! ### A picture -/

namespace Canvas

omit [IsStrictOrderedRing K] in
/-- A frame shows each line of each claim. -/
theorem mem_elements_draw (c : Canvas K) {id : ClaimId} {claim : Claim K} {content : String} {line : Nat}
    (hclaim : c.draw.graph.claim? id = some claim) (hline : claim.text[line]? = some content) :
    .text content (Scene.baseline c.style claim line) (Scene.fontOf c.style claim) (c.style.looks.fontColor claim) ∈
      c.draw.surface.elements := by
  obtain ⟨border, hpainted⟩ := c.measureClaims.2.scene.exists_infix_elements c.palette hclaim
  rw [c.surface_draw]
  exact hpainted.subset (.tail _ (.tail _ (Scene.mem_textElements.2 ⟨line, hline, rfl, rfl, rfl⟩)))

/-- **Lines stay in their boxes.** However a canvas was worked on, as long as only the canvas measures claims
and no text is edited under a size: if the style in force has a scale, and neither padding nor line height is
negative, then a frame shows each claim as a filled box, its border and its lines, one for each line of its
text and each of them held by the box, where the margin is the scaled padding and the width that of the line
in the very font it is painted in. No other text is shown. -/
theorem lines_stay_in_boxes (surface : Surface K) (container : Size K) (style : Style K)
    {operations : List (CanvasOperation K)} (hoperations : ∀ operation ∈ operations, operation.WritesNoSize) :
    let c := (create surface container style).after operations
    let scale := c.style.scale
    let picture := c.draw.surface
    let holds (claim : Claim K) (content : String) (start : Point K) (font : Font K) :=
      (claim.rect.scaled scale).HoldsLine (scale * c.style.padding) (picture.measureText content font) start
    0 < scale → 0 ≤ c.style.padding → 0 ≤ c.style.lineHeight →
    (∀ id claim, c.draw.graph.claim? id = some claim → ∃ fill border lines,
      .fillRect (claim.rect.scaled scale) fill :: .strokeRect (claim.rect.scaled scale) border scale :: lines
        <:+: picture.elements ∧
      List.Forall₂ (fun content e => ∃ start font color,
        e = .text content start font color ∧ holds claim content start font) claim.text lines) ∧
    ∀ content start font color, .text content start font color ∈ picture.elements →
      ∃ id claim, c.draw.graph.claim? id = some claim ∧ content ∈ claim.text ∧ holds claim content start font := by
  intro c scale picture holds hscale hpadding hlineHeight
  have hsizes : c.ExactSizes := by
    refine after_induction exactSizes_perform hoperations fun id claim hclaim => ?_
    simp [create, fitSurface, Graph.claim?, Graph.empty] at hclaim
  -- From here on it does not matter how the canvas came about.
  clear_value c
  have helements : picture.elements = (c.measureClaims.2.scene.elements c.palette).1 :=
    congrArg Surface.elements c.surface_draw
  have hholds {id claim content line} (hclaim : c.draw.graph.claim? id = some claim)
      (hline : claim.text[line]? = some content) :
      holds claim content (Scene.baseline c.style claim line) (Scene.fontOf c.style claim) :=
    Scene.holdsLine_baseline hscale hpadding hlineHeight (hsizes.size?_draw hclaim) hline
  rw [helements]
  constructor
  · intro id claim hclaim
    obtain ⟨border, hpainted⟩ := c.measureClaims.2.scene.exists_infix_elements c.palette hclaim
    refine ⟨_, border, _, hpainted, Scene.forall₂_textElements fun line content hline => ?_⟩
    exact ⟨_, _, _, rfl, hholds hclaim hline⟩
  · intro content start font color hmem
    obtain ⟨id, claim, hclaim, htext⟩ := c.measureClaims.2.scene.exists_claim_of_text hmem
    obtain ⟨line, hline, rfl, rfl, -⟩ := Scene.mem_textElements.1 htext
    exact ⟨id, claim, hclaim, List.mem_of_getElem? hline, hholds hclaim hline⟩

/-- Two lines in italics, drawn in a larger font before the scale changes. -/
theorem lines_stay_in_boxes_of_larger_font :
    let operations : List (CanvasOperation ℚ) :=
      [.updateStyle fun style => { style with fontSize := 20 }, .addClaim "Streets\nare wet" (.ofAssumption true),
        .draw, .updateStyle fun style => { style with scale := 2 }]
    let c := (create (.blank 0 0 .estimate) ⟨100, 100⟩ (.ofTheme .classic 1)).after operations
    (∀ operation ∈ operations, operation.WritesNoSize) ∧
    (0 < c.style.scale ∧ 0 ≤ c.style.padding ∧ 0 ≤ c.style.lineHeight) ∧
    ∃ claim, c.draw.graph.claim? ⟨0⟩ = some claim ∧ claim.text = ["Streets", "are wet"] ∧
      ∃ fill border lines,
        .fillRect (claim.rect.scaled 2) fill :: .strokeRect (claim.rect.scaled 2) border 2 :: lines
          <:+: c.draw.surface.elements ∧ lines.length = 2 := by
  intro operations c
  have hoperations : ∀ operation ∈ operations, operation.WritesNoSize := by
    simp [operations, CanvasOperation.WritesNoSize]
  have hstyle : 0 < c.style.scale ∧ 0 ≤ c.style.padding ∧ 0 ≤ c.style.lineHeight := by decide +kernel
  have htext : (c.draw.graph.claim? ⟨0⟩).map (·.text) = some ["Streets", "are wet"] := by decide +kernel
  obtain ⟨claim, hclaim, htext⟩ := Option.map_eq_some_iff.1 htext
  have h := lines_stay_in_boxes (.blank 0 0 .estimate) ⟨100, 100⟩ (.ofTheme .classic 1) hoperations
    hstyle.1 hstyle.2.1 hstyle.2.2
  obtain ⟨fill, border, lines, hpainted, hlines⟩ := h.1 _ claim hclaim
  have hcount : lines.length = 2 := by rw [← hlines.length_eq, htext]; rfl
  exact ⟨hoperations, hstyle, claim, hclaim, htext, fill, border, lines, hpainted, hcount⟩

/-- Sizes that are not those of the text: a claim that is measured by a rule of one's own, and one whose text
is edited once the canvas has measured it. Each shows a line that its box does not hold. -/
theorem exists_line_past_box :
    let unasked (g : Graph ℚ) := (g.measureClaims fun _ => ⟨0, 0⟩).2
    let retold (g : Graph ℚ) := g.editClaim ⟨0⟩ fun c => { c with text := ["It has been raining"] }
    ∀ operations ∈ ([[.addClaim "It rains" .plain, .editGraph unasked],
        [.addClaim "It rains" .plain, .measureClaims, .editGraph retold]] : List (List (CanvasOperation ℚ))),
      let c := (create (.blank 0 0 .estimate) ⟨100, 100⟩ (.ofTheme .classic 1)).after operations
      (0 < c.style.scale ∧ 0 ≤ c.style.padding ∧ 0 ≤ c.style.fontSize ∧ 0 ≤ c.style.lineHeight) ∧
      ∃ claim content start font color, c.draw.graph.claim? ⟨0⟩ = some claim ∧ claim.text = [content] ∧
        .text content start font color ∈ c.draw.surface.elements ∧
        ¬(claim.rect.scaled c.style.scale).HoldsLine (c.style.scale * c.style.padding)
          (c.draw.surface.measureText content font) start := by
  intro unasked retold operations hoperations c
  have hpast : (0 < c.style.scale ∧ 0 ≤ c.style.padding ∧ 0 ≤ c.style.fontSize ∧ 0 ≤ c.style.lineHeight) ∧
      ∃ claim ∈ c.draw.graph.claim? ⟨0⟩, ∃ content ∈ claim.text[0]?, claim.text = [content] ∧
        (claim.rect.scaled c.style.scale).right < (Scene.baseline c.style claim 0).x +
          c.draw.surface.measureText content (Scene.fontOf c.style claim) + c.style.scale * c.style.padding := by
    simp only [List.mem_cons, List.not_mem_nil, or_false] at hoperations
    rcases hoperations with rfl | rfl <;> decide +kernel
  obtain ⟨hstyle, claim, hclaim, content, hline, htext, hpast⟩ := hpast
  exact ⟨hstyle, claim, content, _, _, _, hclaim, htext, c.mem_elements_draw hclaim hline,
    fun hholds => hpast.not_ge hholds.right⟩

end Canvas

end ArgumentDiagram
