import ArgumentDiagram.Proofs.Canvas.Run
import ArgumentDiagram.Proofs.Layout.Verdict
import ArgumentDiagram.Proofs.Style.Palette

/-!
Drawing twice is drawing once, as measured claims stay as they are and a palette keeps to its answers. Whatever
changes what a frame is painted from asks for a new frame. Main statement: while no frame is asked for, the
picture on the surface is the one that drawing would paint.
-/

namespace ArgumentDiagram

variable {α : Type}

/-- The border of a claim whose scope has no colour. -/
def Theme.ownBorder (theme : Theme α) (claim : Claim α) : String :=
  if claim.metadata.assumption then theme.assumptionColor else theme.borderColor

namespace Looks

variable {claim : Claim α}

theorem borderOf_of_no_scope (theme : Theme α) (h : claim.metadata.scope = none) (palette : ScopePalette) :
    borderOf theme claim palette = (theme.ownBorder claim, palette) := by
  simp [borderOf, h, Theme.ownBorder]

theorem borderOf_of_scope (theme : Theme α) {scope : String} (h : claim.metadata.scope = some scope)
    (palette : ScopePalette) : borderOf theme claim palette =
      ((palette.colorFor scope).1.getD (theme.ownBorder claim), (palette.colorFor scope).2) := by
  simp [borderOf, h, Theme.ownBorder]

end Looks

/-- Borders are those of a theme. The other looks leave the palette alone, whatever they are. -/
def Style.Themed (style : Style α) : Prop := ∃ theme, style.looks.border = Looks.borderOf theme

/-- A palette has made up its mind about the border of a claim. -/
def Style.Settles (style : Style α) (palette : ScopePalette) (claim : Claim α) (border : String) : Prop :=
  style.looks.border claim palette = (border, palette)

namespace Style

variable {style : Style α} {palette : ScopePalette} {claim : Claim α} {color : String}

theorem settles_of_no_scope {theme : Theme α} (h : style.looks.border = Looks.borderOf theme)
    (hscope : claim.metadata.scope = none) :
    style.Settles palette claim color ↔ color = theme.ownBorder claim := by
  unfold Settles
  rw [h, Looks.borderOf_of_no_scope theme hscope]
  simp [eq_comm]

theorem settles_of_scope {theme : Theme α} (h : style.looks.border = Looks.borderOf theme) {scope : String}
    (hscope : claim.metadata.scope = some scope) :
    style.Settles palette claim color ↔
      ∃ answer, palette.Answers scope answer ∧ color = answer.getD (theme.ownBorder claim) := by
  unfold Settles ScopePalette.Answers
  rw [h, Looks.borderOf_of_scope theme hscope]
  constructor
  · intro hsettled
    obtain ⟨hcolor, hpalette⟩ := Prod.mk.inj hsettled
    exact ⟨(palette.colorFor scope).1, Prod.ext rfl hpalette, hcolor.symm⟩
  · rintro ⟨answer, hanswer, rfl⟩
    rw [hanswer]

/-- A border that was asked for is settled. -/
theorem Themed.settles (h : style.Themed) (claim : Claim α) (palette : ScopePalette) :
    style.Settles (style.looks.border claim palette).2 claim (style.looks.border claim palette).1 := by
  obtain ⟨theme, h⟩ := h
  cases hscope : claim.metadata.scope with
  | none =>
      rw [settles_of_no_scope h hscope, h, Looks.borderOf_of_no_scope theme hscope]
  | some scope =>
      rw [settles_of_scope h hscope, h, Looks.borderOf_of_scope theme hscope]
      exact ⟨_, palette.answers_colorFor scope, rfl⟩

/-- It stays settled, whatever borders are asked for afterwards. -/
theorem Settles.after_border (hstyle : style.Themed) (h : style.Settles palette claim color)
    (other : Claim α) : style.Settles (style.looks.border other palette).2 claim color := by
  obtain ⟨theme, hstyle⟩ := hstyle
  cases hother : other.metadata.scope with
  | none =>
      rw [hstyle, Looks.borderOf_of_no_scope theme hother]
      exact h
  | some asked =>
      rw [hstyle, Looks.borderOf_of_scope theme hother]
      cases hscope : claim.metadata.scope with
      | none =>
          rw [settles_of_no_scope hstyle hscope] at h ⊢
          exact h
      | some scope =>
          rw [settles_of_scope hstyle hscope] at h ⊢
          obtain ⟨answer, hanswer, hcolor⟩ := h
          exact ⟨answer, hanswer.colorFor asked, hcolor⟩

end Style

namespace Scene

variable [Scalar α] {style : Style α} {palette : ScopePalette} {claim : Claim α} {color : String}

theorem settles_claimsElements (hstyle : style.Themed) (claims : List (Claim α))
    (h : style.Settles palette claim color) :
    style.Settles (claimsElements style claims palette).2 claim color := by
  induction claims generalizing palette with
  | nil => exact h
  | cons other rest ih => exact ih (h.after_border hstyle other)

theorem claimElements_of_settles (h : style.Settles palette claim color) :
    claimElements style claim palette =
      (.fillRect (claim.rect.scaled style.scale) (style.looks.background claim)
        :: .strokeRect (claim.rect.scaled style.scale) color style.scale :: textElements style claim,
        palette) := by
  unfold Style.Settles at h
  rw [claimElements, h]

/-- The palette that is left by painting claims paints them alike. -/
theorem claimsElements_again (hstyle : style.Themed) (claims : List (Claim α)) (palette : ScopePalette) :
    claimsElements style claims (claimsElements style claims palette).2 =
      claimsElements style claims palette := by
  induction claims generalizing palette with
  | nil => rfl
  | cons claim rest ih =>
      have hsettled := settles_claimsElements hstyle rest (hstyle.settles claim palette)
      have hclaim := claimElements_of_settles hsettled
      have hrest := ih (style.looks.border claim palette).2
      change claimsElements style (claim :: rest)
        (claimsElements style rest (style.looks.border claim palette).2).2 = _
      rw [claimsElements, hclaim]
      dsimp only
      rw [hrest]
      rfl

theorem elements_again (s : Scene α) (hstyle : s.style.Themed) (palette : ScopePalette) :
    s.elements (s.elements palette).2 = s.elements palette := by
  simp only [elements]
  rw [claimsElements_again hstyle]

theorem elements_of_empty {s : Scene α} (hgraph : s.graph = .empty) (hselection : s.selection = [])
    (houtline : s.outline = none) (palette : ScopePalette) : s.elements palette = ([], palette) := by
  have hrelations : s.relationElements = [] := by
    rw [relationElements, hgraph]
    rfl
  have hselected : s.selectionElements = [] := by
    rw [selectionElements, hselection]
    rfl
  have hboxes : s.outlineElements = [] := by
    rw [outlineElements, houtline]
    exact ite_self _
  have horder : paintOrder s.graph s.selection = [] := by
    rw [hgraph, hselection]
    rfl
  rw [elements, hrelations, hselected, hboxes, horder]
  rfl

end Scene

theorem Graph.measureClaims_of_measured {g : Graph α} (h : ∀ id, g.contains (.claim id) → g.Measured id)
    (sizeOf : List String → Size α) : g.measureClaims sizeOf = (0, g) := by
  have hnone : g.claims.values.countP (!·.isMeasured) = 0 := by
    refine List.countP_eq_zero.2 fun claim hmem => ?_
    obtain ⟨id, hclaim⟩ := Table.mem_values_iff.1 hmem
    obtain ⟨claim', hclaim', hmeasured⟩ := h id (contains_claim_iff.2 ⟨claim, hclaim⟩)
    obtain rfl := Option.some.inj (hclaim.symm.trans hclaim')
    simp [hmeasured]
  rw [measureClaims, updateWhere, if_pos hnone]

variable [Scalar α]

namespace Canvas

variable {c c' : Canvas α}

/-- Two states of a canvas that a frame is painted from alike. -/
structure SameView (c c' : Canvas α) : Prop where
  graph : c'.graph = c.graph
  surface : c'.surface = c.surface
  style : c'.style = c.style
  palette : c'.palette = c.palette
  container : c'.container = c.container
  selected : c'.selected = c.selected
  focused : c'.focused = c.focused
  outline : c'.outline = c.outline

/-- Drawing would change nothing: all claims are measured, and the surface, the graph and the palette would
stay as they are. -/
structure UpToDate (c : Canvas α) : Prop where
  measured : ∀ id, c.graph.contains (.claim id) → c.graph.Measured id
  surface : c.draw.surface = c.surface
  graph : c.draw.graph = c.graph
  palette : c.draw.palette = c.palette

theorem measureClaims_of_measured (h : ∀ id, c.graph.contains (.claim id) → c.graph.Measured id) :
    c.measureClaims.2 = c := by
  rw [measureClaims, Graph.measureClaims_of_measured h]

theorem measured_measureClaims (c : Canvas α) {id : ClaimId}
    (hlive : c.measureClaims.2.graph.contains (.claim id)) : c.measureClaims.2.graph.Measured id :=
  Layout.measured_measureClaims _ _ hlive

/-- How many pixels a canvas needs. -/
def pixels (c : Canvas α) : Nat × Nat :=
  (Scalar.pixels (c.style.scale * Scalar.max c.graph.extent.width c.container.width),
    Scalar.pixels (c.style.scale * Scalar.max c.graph.extent.height c.container.height))

theorem surface_draw (c : Canvas α) : c.draw.surface =
    ⟨c.measureClaims.2.pixels.1, c.measureClaims.2.pixels.2, c.surface.background, c.surface.measure,
      (c.measureClaims.2.scene.elements c.palette).1⟩ := rfl

theorem style_draw (c : Canvas α) : c.draw.style = c.style := rfl

theorem graph_draw (c : Canvas α) : c.draw.graph = c.measureClaims.2.graph := rfl

theorem palette_draw (c : Canvas α) : c.draw.palette = (c.measureClaims.2.scene.elements c.palette).2 := rfl

theorem scene_draw (c : Canvas α) : c.draw.scene = c.measureClaims.2.scene := rfl

theorem pixels_draw (c : Canvas α) : c.draw.pixels = c.measureClaims.2.pixels := rfl

theorem measured_draw (c : Canvas α) (id : ClaimId) (h : c.draw.graph.contains (.claim id)) :
    c.draw.graph.Measured id := by
  rw [graph_draw] at h ⊢
  exact c.measured_measureClaims h

theorem background_draw (c : Canvas α) : c.draw.surface.background = c.surface.background := rfl

theorem measure_draw (c : Canvas α) : c.draw.surface.measure = c.surface.measure := rfl

theorem upToDate_draw (hstyle : c.style.Themed) : c.draw.UpToDate := by
  have hsame : c.draw.measureClaims.2 = c.draw := measureClaims_of_measured c.measured_draw
  have hagain : c.draw.scene.elements c.draw.palette = c.measureClaims.2.scene.elements c.palette := by
    rw [palette_draw, scene_draw]
    exact Scene.elements_again _ hstyle _
  constructor
  case measured => exact c.measured_draw
  case surface =>
    rw [surface_draw c.draw, hsame, hagain, pixels_draw, background_draw, measure_draw, ← surface_draw]
  case graph => rw [graph_draw c.draw, hsame]
  case palette => rw [palette_draw c.draw, hsame, hagain, palette_draw]

/-- Drawing looks at nothing but the view. -/
theorem SameView.draw (h : c.SameView c') : c.draw.SameView c'.draw := by
  obtain ⟨graph, surface, style, palette, settings, container, focused, cursor, selected, press, requested,
    outline, events⟩ := c
  obtain ⟨graph', surface', style', palette', settings', container', focused', cursor', selected', press',
    requested', outline', events'⟩ := c'
  obtain ⟨rfl, rfl, rfl, rfl, rfl, rfl, rfl, rfl⟩ := h
  exact ⟨rfl, rfl, rfl, rfl, rfl, rfl, rfl, rfl⟩

theorem SameView.upToDate (h : c.SameView c') (hc : c.UpToDate) : c'.UpToDate where
  measured := h.graph ▸ hc.measured
  surface := h.draw.surface.trans (hc.surface.trans h.surface.symm)
  graph := h.draw.graph.trans (hc.graph.trans h.graph.symm)
  palette := h.draw.palette.trans (hc.palette.trans h.palette.symm)

omit [Scalar α] in
theorem SameView.refl (c : Canvas α) : c.SameView c := ⟨rfl, rfl, rfl, rfl, rfl, rfl, rfl, rfl⟩

/-! ### What asks for a frame -/

/-- An operation asks for a frame, or draws one, or does nothing to the view but measure claims. -/
def Heeds (c c' : Canvas α) : Prop :=
  c'.frameRequested = true ∨ c' = c.draw ∨
    (c'.frameRequested = c.frameRequested ∧ (c.SameView c' ∨ c.measureClaims.2.SameView c'))

theorem Heeds.of_sameView (hrequested : c'.frameRequested = c.frameRequested) (h : c.SameView c') :
    c.Heeds c' :=
  .inr (.inr ⟨hrequested, .inl h⟩)

/-- A frame is not painted from the settings of the layout, the pointer and the listeners. -/
theorem heeds_unwatched (c : Canvas α) (settings : LayoutSettings α) (cursor : Cursor) (press : Option (Press α))
    (events : EventBus CanvasEvent) :
    c.Heeds { c with settings := settings, cursor := cursor, press := press, events := events } :=
  .of_sameView rfl ⟨rfl, rfl, rfl, rfl, rfl, rfl, rfl, rfl⟩

theorem heeds_fits {c c' : Canvas α} (h : c' = c ∨ c.Rearranges c') : c.Heeds c' := by
  rcases h with rfl | ⟨anchor, size, rfl⟩
  · exact .of_sameView rfl (.refl _)
  · exact .inl rfl

theorem heeds_keyDown (c : Canvas α) (key : Key) (shift : Bool) : c.Heeds (c.keyDown key shift).2 := by
  rcases c.keyDown_cases key shift with h | h | ⟨-, h⟩ | ⟨dx, dy, h⟩ <;> rw [h]
  · exact .of_sameView rfl (.refl c)
  · exact .inl rfl
  · exact .inl rfl
  · exact .inl rfl

theorem heeds_perform (c : Canvas α) (operation : CanvasOperation α) : c.Heeds (c.perform operation) := by
  cases operation with
  | addRelation sources target kind metadata =>
      rcases c.addRelation_cases sources target kind metadata with h | ⟨id, g, -, h⟩ <;> rw [h]
      · exact .of_sameView rfl (.refl c)
      · exact .inl rfl
  | withSettings settings => exact c.heeds_unwatched ..
  | setFocus focused =>
      rcases c.setFocus_cases focused with h | h <;> rw [perform, h]
      · exact .of_sameView rfl (.refl c)
      · exact .inl rfl
  | measureClaims => exact .inr (.inr ⟨rfl, .inr (.refl _)⟩)
  | layout => exact .inr (.inr ⟨rfl, .inr (.refl _)⟩)
  | applyLayout =>
      rcases c.applyLayout_cases with h | ⟨l, -, h⟩ <;> rw [perform, h]
      · exact .inr (.inr ⟨rfl, .inr (.refl _)⟩)
      · exact .inl rfl
  | fit padding => exact heeds_fits (c.fit_cases padding)
  | fitVertically padding => exact heeds_fits (c.fitVertically_cases padding)
  | pointerDown point extend =>
      rcases c.pointerDown_cases point extend with h | ⟨id, -, -, h⟩ <;> rw [perform, h]
      · exact c.heeds_unwatched ..
      · exact .inl rfl
  | pointerMove point =>
      rcases c.pointerMove_cases point with ⟨-, cursor, h⟩ | ⟨press, dragging, dx, dy, -, h⟩ <;> rw [perform, h]
      · exact c.heeds_unwatched ..
      · exact .inl rfl
  | pointerUp point =>
      rcases c.pointerUp_cases point with ⟨-, -, h⟩ | ⟨-, -, h⟩ | ⟨-, selected, -, h⟩ <;> rw [perform, h]
      · exact c.heeds_unwatched ..
      · exact .inl rfl
      · exact .inl rfl
  | keyDown key shift => exact c.heeds_keyDown key shift
  | on name => exact c.heeds_unwatched ..
  | off name id => exact c.heeds_unwatched ..
  | fire name event => exact c.heeds_unwatched ..
  | frame =>
      rcases c.frame_cases with h | h <;> rw [perform, h]
      · exact .of_sameView rfl (.refl c)
      · exact .inr (.inl rfl)
  | draw => exact .inr (.inl rfl)
  | _ => exact .inl rfl

end Canvas

/-- The borders of all styles that an operation brings in are those of themes. -/
def CanvasOperation.Themed : CanvasOperation α → Prop
  | .updateStyle edit => ∀ style : Style α, style.Themed → (edit style).Themed
  | .setStyle style => style.Themed
  | _ => True

namespace Canvas

variable {c : Canvas α}

omit [Scalar α] in
theorem style_fits {c c' : Canvas α} (h : c' = c ∨ c.Rearranges c') : c'.style = c.style := by
  rcases h with rfl | ⟨anchor, size, rfl⟩ <;> rfl

theorem style_keyDown (c : Canvas α) (key : Key) (shift : Bool) : (c.keyDown key shift).2.style = c.style := by
  rcases c.keyDown_cases key shift with h | h | ⟨-, h⟩ | ⟨dx, dy, h⟩ <;> rw [h]
  · exact deleteSelection_induction (P := fun c' => c'.style = c.style) (fun _ _ h => h) (fun _ h => h) rfl
  · rfl
  · rfl

theorem themed_perform (c : Canvas α) (operation : CanvasOperation α) (hoperation : operation.Themed)
    (h : c.style.Themed) : (c.perform operation).style.Themed := by
  cases operation with
  | updateStyle edit => exact hoperation c.style h
  | setStyle style => exact hoperation
  | addRelation sources target kind metadata =>
      rcases c.addRelation_cases sources target kind metadata with h' | ⟨id, g, -, h'⟩ <;> rw [h'] <;> exact h
  | setFocus focused => rcases c.setFocus_cases focused with h' | h' <;> rw [perform, h'] <;> exact h
  | applyLayout => rcases c.applyLayout_cases with h' | ⟨l, -, h'⟩ <;> rw [perform, h'] <;> exact h
  | fit padding => exact (style_fits (c.fit_cases padding)).symm ▸ h
  | fitVertically padding => exact (style_fits (c.fitVertically_cases padding)).symm ▸ h
  | pointerDown point extend =>
      rcases c.pointerDown_cases point extend with h' | ⟨id, -, -, h'⟩ <;> rw [perform, h'] <;> exact h
  | pointerMove point =>
      rcases c.pointerMove_cases point with ⟨-, cursor, h'⟩ | ⟨press, dragging, dx, dy, -, h'⟩ <;>
        rw [perform, h'] <;> exact h
  | pointerUp point =>
      rcases c.pointerUp_cases point with ⟨-, -, h'⟩ | ⟨-, -, h'⟩ | ⟨-, selected, -, h'⟩ <;>
        rw [perform, h'] <;> exact h
  | keyDown key shift => exact (c.style_keyDown key shift).symm ▸ h
  | frame => rcases c.frame_cases with h' | h' <;> rw [perform, h'] <;> exact h
  | _ => exact h

/-- The picture is the latest one unless a new one is asked for, and it stays so. -/
structure Fresh (c : Canvas α) : Prop where
  themed : c.style.Themed
  upToDate : c.frameRequested = false → c.UpToDate

theorem fresh_perform (c : Canvas α) (operation : CanvasOperation α) (hoperation : operation.Themed)
    (h : c.Fresh) : (c.perform operation).Fresh where
  themed := c.themed_perform operation hoperation h.themed
  upToDate := by
    intro hidle
    rcases c.heeds_perform operation with hrequested | hdraw | ⟨hrequested, hsame⟩
    · rw [hrequested] at hidle
      cases hidle
    · rw [hdraw]
      exact upToDate_draw h.themed
    · have hbefore : c.UpToDate := h.upToDate (hrequested ▸ hidle)
      rw [measureClaims_of_measured hbefore.measured, or_self] at hsame
      exact hsame.upToDate hbefore

/-- Nothing is there to be painted, and the surface has its size already. -/
theorem upToDate_create {surface : Surface α} (hblank : surface.elements = []) (container : Size α)
    (style : Style α) : (create surface container style).UpToDate := by
  have hmeasured : ∀ id, (create surface container style).graph.contains (.claim id) →
      (create surface container style).graph.Measured id := by
    intro id hlive
    obtain ⟨claim, hclaim⟩ := Graph.contains_claim_iff.1 hlive
    cases hclaim
  have hsame := measureClaims_of_measured hmeasured
  have hnothing : (create surface container style).scene.elements (create surface container style).palette =
      ([], (create surface container style).palette) := Scene.elements_of_empty rfl rfl rfl _
  constructor
  case measured => exact hmeasured
  case surface =>
    rw [surface_draw, hsame, hnothing]
    have hsurface : (create surface container style).surface =
        surface.resize (create surface container style).pixels.1 (create surface container style).pixels.2 := rfl
    rw [hsurface, Surface.resize, hblank]
  case graph => rw [graph_draw, hsame]
  case palette => rw [palette_draw, hsame, hnothing]

/-- While no frame is asked for, all claims are measured, and drawing would leave the surface, the graph and
the colours of scopes as they are. -/
theorem no_stale_picture {surface : Surface α} (hblank : surface.elements = []) (container : Size α)
    {style : Style α} (hstyle : style.Themed) {operations : List (CanvasOperation α)}
    (hoperations : ∀ operation ∈ operations, operation.Themed)
    (hidle : ((create surface container style).after operations).frameRequested = false) :
    ((create surface container style).after operations).UpToDate := by
  have hcreate : (create surface container style).Fresh := ⟨hstyle, fun _ => upToDate_create hblank container style⟩
  exact (after_induction fresh_perform hoperations hcreate).upToDate hidle

/-- A claim is painted, and working out the layout afterwards needs no new frame. -/
theorem no_stale_picture_after_layout :
    let style : Style Float32 := .ofTheme .classic 1.0
    let c := (create (.blank 640 480 .estimate) ⟨640.0, 480.0⟩ style).after
      [.addClaim "Streets are wet" .plain, .draw, .layout]
    style.Themed ∧ c.frameRequested = false ∧ c.UpToDate :=
  ⟨⟨.classic, rfl⟩, rfl, no_stale_picture rfl _ ⟨.classic, rfl⟩ (by simp [CanvasOperation.Themed]) rfl⟩

end Canvas

end ArgumentDiagram
