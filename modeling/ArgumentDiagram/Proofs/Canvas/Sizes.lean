import ArgumentDiagram.Proofs.Canvas.Gesture
import ArgumentDiagram.Proofs.Graph.Building
import ArgumentDiagram.Proofs.Surface.Measuring

/-!
The sizes of claims on a canvas. Claims get their sizes by being measured under the style in force, and a style
that would size them otherwise takes their sizes from them. Main statement: so at any time a claim has no size
or the one that measuring it again would give, and what is drawn is drawn in the sizes of the style in force.
-/

namespace ArgumentDiagram

variable {α : Type}

namespace Placement

/-- Neither a width nor a height is known. -/
def Unsized (p : Placement α) : Prop := p.width = none ∧ p.height = none

instance [DecidableEq α] (p : Placement α) : Decidable p.Unsized := inferInstanceAs (Decidable (_ ∧ _))

def SameSize (p p' : Placement α) : Prop := p'.width = p.width ∧ p'.height = p.height

/-- What a change that writes no size does to a placement. -/
def KeepsSize (p p' : Placement α) : Prop := p'.Unsized ∨ p.SameSize p'

theorem Unsized.size?_eq_none {p : Placement α} (h : p.Unsized) : p.size? = none := by
  rw [size?, h.1]

theorem SameSize.size?_eq {p p' : Placement α} (h : p.SameSize p') : p'.size? = p.size? := by
  rw [size?, h.1, h.2, size?]

end Placement

namespace Graph

/-- Each claim has no size, or the lines and the size that it had. -/
def KeepsSizes (g g' : Graph α) : Prop :=
  ∀ id claim', g'.claim? id = some claim' → claim'.placement.Unsized ∨
    ∃ claim, g.claim? id = some claim ∧ claim'.text = claim.text ∧ claim.placement.SameSize claim'.placement

variable {g g' g'' : Graph α}

theorem KeepsSizes.refl (g : Graph α) : g.KeepsSizes g :=
  fun _ claim hclaim => .inr ⟨claim, hclaim, rfl, rfl, rfl⟩

theorem KeepsSizes.trans (h : g.KeepsSizes g') (h' : g'.KeepsSizes g'') : g.KeepsSizes g'' := by
  intro id claim'' hclaim''
  rcases h' id claim'' hclaim'' with hunsized | ⟨claim', hclaim', htext', hwidth', hheight'⟩
  · exact .inl hunsized
  · rcases h id claim' hclaim' with ⟨hwidth, hheight⟩ | ⟨claim, hclaim, htext, hwidth, hheight⟩
    · exact .inl ⟨hwidth'.trans hwidth, hheight'.trans hheight⟩
    · exact .inr ⟨claim, hclaim, htext'.trans htext, hwidth'.trans hwidth, hheight'.trans hheight⟩

/-- What works on each claim alone writes no size if it writes none of each claim. -/
theorem keepsSizes_of_map {f : ClaimId → Placement α → Placement α}
    (hclaim : ∀ id, g'.claim? id = (g.claim? id).map fun c => c.mapPlacement (f id))
    (hf : ∀ id (p : Placement α), p.KeepsSize (f id p)) : g.KeepsSizes g' := by
  intro id claim' hclaim'
  rw [hclaim, Option.map_eq_some_iff] at hclaim'
  obtain ⟨claim, hsome, rfl⟩ := hclaim'
  exact (hf id claim.placement).imp_right fun hsame => ⟨claim, hsome, rfl, hsame⟩

theorem keepsSizes_updateClaim (g : Graph α) (id : ClaimId) {f : Placement α → Placement α}
    (hf : ∀ p : Placement α, p.KeepsSize (f p)) : g.KeepsSizes (g.updateClaim id f) := by
  refine keepsSizes_of_map (f := fun other => if other = id then f else fun p => p) (fun other => ?_)
    fun other p => ?_
  · rw [claim?_updateClaim]
    split <;> rfl
  · split
    · exact hf p
    · exact .inr ⟨rfl, rfl⟩

theorem keepsSizes_updateClaims (g : Graph α) (ids : List ClaimId) {f : Placement α → Placement α}
    (hf : ∀ p : Placement α, p.KeepsSize (f p)) : g.KeepsSizes (g.updateClaims ids f) := by
  induction ids generalizing g with
  | nil => exact .refl g
  | cons id rest ih => exact (g.keepsSizes_updateClaim id hf).trans (ih _)

theorem keepsSizes_updateAll (g : Graph α) {f : Claim α → Placement α}
    (hf : ∀ claim : Claim α, claim.placement.KeepsSize (f claim)) : g.KeepsSizes (g.updateAll f) := by
  intro id claim' hclaim'
  rw [claim?, updateAll, Table.get?_mapValues, Option.map_eq_some_iff] at hclaim'
  obtain ⟨claim, hsome, rfl⟩ := hclaim'
  exact (hf claim).imp_right fun hsame => ⟨claim, hsome, rfl, hsame⟩

theorem keepsSizes_moveClaims (g : Graph α) (outline : Outline α) :
    g.KeepsSizes (Layout.moveClaims outline g) := by
  induction outline generalizing g with
  | nil => exact .refl g
  | cons placed rest ih =>
      rw [Layout.moveClaims, List.foldl_cons]
      refine .trans ?_ (ih _)
      split
      · exact g.keepsSizes_updateClaim _ fun _ => .inr ⟨rfl, rfl⟩
      · exact .refl g

theorem keepsSizes_delete (g : Graph α) (entity : Entity) : g.KeepsSizes (g.delete entity).2 := by
  intro id claim hclaim
  rw [claim?_delete] at hclaim
  split at hclaim
  · cases hclaim
  · exact .inr ⟨claim, hclaim, rfl, rfl, rfl⟩

variable [Scalar α]

omit [Scalar α] in
theorem keepsSizes_forgetSizes (g : Graph α) : g.KeepsSizes g.forgetSizes.2 := by
  intro id claim' hclaim'
  rw [forgetSizes, claim?_updateWhere, Option.map_eq_some_iff] at hclaim'
  obtain ⟨claim, hsome, rfl⟩ := hclaim'
  split
  · exact .inl ⟨rfl, rfl⟩
  · exact .inr ⟨claim, hsome, rfl, rfl, rfl⟩

/-- Whatever is added has no size. -/
theorem BuildsTo.keepsSizes (h : g.BuildsTo g') : g.KeepsSizes g' := by
  induction h with
  | refl => exact .refl g
  | addClaim _ text metadata ih =>
      refine ih.trans fun id claim hclaim => ?_
      rw [claim?_addClaim] at hclaim
      split at hclaim
      · obtain rfl := Option.some.inj hclaim
        exact .inl ⟨rfl, rfl⟩
      · exact .inr ⟨claim, hclaim, rfl, rfl, rfl⟩
  | pushRelation _ source target kind metadata ih => exact ih.trans (.refl _)

end Graph

/-- An operation that gives no claim a size. -/
def Operation.WritesNoSize : Operation α → Prop
  | .measure _ => False
  | .updateClaim _ f => ∀ p : Placement α, p.KeepsSize (f p)
  | .updateAll f => ∀ claim : Claim α, claim.placement.KeepsSize (f claim)
  | _ => True

namespace Graph

variable [Scalar α] {g : Graph α}

theorem keepsSizes_perform (g : Graph α) {operation : Operation α} (hoperation : operation.WritesNoSize) :
    g.KeepsSizes (g.perform operation).2 := by
  cases operation with
  | addClaim text metadata => exact (BuildsTo.refl.addClaim text metadata).keepsSizes
  | addRelation sources target kind metadata =>
      rw [perform]
      split
      next hadd => exact (buildsTo_addRelation hadd).keepsSizes
      next => exact .refl g
  | delete entity => exact g.keepsSizes_delete entity
  | measure sizeOf => exact hoperation.elim
  | forgetSizes => exact g.keepsSizes_forgetSizes
  | updateClaim id f => exact g.keepsSizes_updateClaim id hoperation
  | updateAll f => exact g.keepsSizes_updateAll hoperation
  | applyLayout layout => exact g.keepsSizes_moveClaims layout.outline
  | loadPayload payload =>
      rw [perform]
      split
      next hload => exact (Payload.buildsTo_load hload).keepsSizes
      next => exact .refl g
  | loadScript script =>
      rw [perform]
      split
      next hload => exact (Script.buildsTo_load hload).keepsSizes
      next => exact .refl g

theorem keepsSizes_after (g : Graph α) {operations : List (Operation α)}
    (hoperations : ∀ operation ∈ operations, operation.WritesNoSize) : g.KeepsSizes (g.after operations) := by
  induction operations generalizing g with
  | nil => exact .refl g
  | cons operation rest ih =>
      obtain ⟨hfirst, hrest⟩ := List.forall_mem_cons.1 hoperations
      exact (g.keepsSizes_perform hfirst).trans (ih _ hrest)

end Graph

namespace CanvasOperation

/-- Whatever works on the graph itself takes the size from a claim, or leaves it its text and its size. -/
def WritesNoSize : CanvasOperation α → Prop
  | .editGraph edit => ∀ g : Graph α, g.KeepsSizes (edit g)
  | _ => True

theorem WritesNoSize.of_operations [Scalar α] {operations : List (Operation α)}
    (hoperations : ∀ operation ∈ operations, operation.WritesNoSize) :
    (CanvasOperation.editGraph (·.after operations)).WritesNoSize :=
  fun g => g.keepsSizes_after hoperations

end CanvasOperation

namespace Graph

variable {g g' : Graph α} {fits fits' : List String → Size α → Prop} {sizeOf : List String → Size α}

/-- Each claim has no size, or one that fits its text. -/
def Sized (g : Graph α) (fits : List String → Size α → Prop) : Prop :=
  ∀ id claim, g.claim? id = some claim → claim.placement.Unsized ∨
    ∃ known, claim.placement.size? = some known ∧ fits claim.text known

namespace Sized

theorem keeps (h : g.Sized fits) (hkeeps : g.KeepsSizes g') : g'.Sized fits := by
  intro id claim' hclaim'
  rcases hkeeps id claim' hclaim' with hunsized | ⟨claim, hclaim, htext, hsame⟩
  · exact .inl hunsized
  · rcases h id claim hclaim with ⟨hwidth, hheight⟩ | ⟨known, hknown, hsize⟩
    · exact .inl ⟨hsame.1.trans hwidth, hsame.2.trans hheight⟩
    · exact .inr ⟨known, hsame.size?_eq.trans hknown, htext ▸ hsize⟩

theorem imp (h : g.Sized fits) (himp : ∀ lines size, fits lines size → fits' lines size) : g.Sized fits' := by
  intro id claim hclaim
  refine (h id claim hclaim).imp_right ?_
  rintro ⟨known, hknown, hsize⟩
  exact ⟨known, hknown, himp claim.text known hsize⟩

/-- After measuring all claims have sizes that fit. -/
theorem exists_of_measureClaims (h : g.Sized fits) (hfits : ∀ lines, fits lines (sizeOf lines)) {id : ClaimId}
    {claim' : Claim α} (hclaim' : (g.measureClaims sizeOf).2.claim? id = some claim') :
    ∃ known, claim'.placement.size? = some known ∧ fits claim'.text known := by
  rw [Graph.measureClaims, claim?_updateWhere, Option.map_eq_some_iff] at hclaim'
  obtain ⟨claim, hclaim, rfl⟩ := hclaim'
  split
  next => exact ⟨sizeOf claim.text, rfl, hfits claim.text⟩
  next hmeasured =>
    refine (h id claim hclaim).resolve_left fun hunsized => hmeasured ?_
    simp [Claim.isMeasured, Placement.isMeasured, hunsized.size?_eq_none]

theorem measureClaims (h : g.Sized fits) (hfits : ∀ lines, fits lines (sizeOf lines)) :
    (g.measureClaims sizeOf).2.Sized fits :=
  fun _ _ hclaim => .inr (h.exists_of_measureClaims hfits hclaim)

/-- Claims without sizes fit anything. -/
theorem forgetSizes (h : g.Sized fits) : g.forgetSizes.2.Sized fits' := by
  intro id claim' hclaim'
  rw [Graph.forgetSizes, claim?_updateWhere, Option.map_eq_some_iff] at hclaim'
  obtain ⟨claim, hclaim, rfl⟩ := hclaim'
  left
  split
  next => exact ⟨rfl, rfl⟩
  next hunmeasured =>
    refine (h id claim hclaim).resolve_right fun ⟨known, hknown, _⟩ => hunmeasured ?_
    simp [Claim.isMeasured, Placement.isMeasured, hknown]

end Sized

end Graph

namespace Canvas

variable [Scalar α] {c c' c'' : Canvas α} {operation : CanvasOperation α}

/-- No size is written, and texts are measured alike before and after. -/
structure KeepsSizes (c c' : Canvas α) : Prop where
  style : c'.style = c.style
  measure : c'.surface.measure = c.surface.measure
  graph : c.graph.KeepsSizes c'.graph

omit [Scalar α] in
theorem KeepsSizes.of_graph (h : c.graph.KeepsSizes c'.graph) (hstyle : c'.style = c.style)
    (hsurface : c'.surface = c.surface) : c.KeepsSizes c' := ⟨hstyle, congrArg Surface.measure hsurface, h⟩

omit [Scalar α] in
theorem KeepsSizes.refl (c : Canvas α) : c.KeepsSizes c := ⟨rfl, rfl, .refl _⟩

/-- What an operation that writes no size can do to sizes: it changes the style, it leaves them, or it measures the
claims before it leaves them. -/
theorem sizes_perform_cases (c : Canvas α) (hoperation : operation.WritesNoSize) :
    (∃ edit, c.perform operation = c.updateStyle edit) ∨ c.KeepsSizes (c.perform operation) ∨
      c.measureClaims.2.KeepsSizes (c.perform operation) := by
  have hkept : ∀ {c' : Canvas α}, c'.graph = c.graph → c'.style = c.style → c'.surface = c.surface →
      c.KeepsSizes c' := fun hgraph => .of_graph (hgraph ▸ .refl c.graph)
  have hmoved : ∀ f : Placement α → Placement α, (∀ p : Placement α, p.SameSize (f p)) →
      c.graph.KeepsSizes (c.graph.updateClaims c.selected f) :=
    fun f hf => c.graph.keepsSizes_updateClaims _ fun p => .inr (hf p)
  have hfits : ∀ {c' : Canvas α}, c' = c ∨ c.Rearranges c' → c.KeepsSizes c' := by
    rintro c' (rfl | ⟨anchor, size, rfl⟩)
    · exact .refl _
    · exact .of_graph (Graph.keepsSizes_updateAll _ fun _ => .inr ⟨rfl, rfl⟩) rfl rfl
  cases operation with
  | addClaim text metadata =>
      exact .inr (.inl (.of_graph (Graph.BuildsTo.refl.addClaim text metadata).keepsSizes rfl rfl))
  | addRelation sources target kind metadata =>
      rcases c.addRelation_cases sources target kind metadata with h | ⟨id, g, hadd, h⟩ <;> rw [h]
      · exact .inr (.inl (.refl c))
      · exact .inr (.inl (.of_graph (Graph.buildsTo_addRelation hadd).keepsSizes rfl rfl))
  | delete entity => exact .inr (.inl (.of_graph (c.graph.keepsSizes_delete entity) rfl rfl))
  | editGraph edit => exact .inr (.inl (.of_graph (hoperation c.graph) rfl rfl))
  | updateStyle edit => exact .inl ⟨edit, rfl⟩
  | setStyle style => exact .inl ⟨fun _ => style, rfl⟩
  | setFocus focused =>
      rcases c.setFocus_cases focused with h | h <;> rw [perform, h] <;> exact .inr (.inl (hkept rfl rfl rfl))
  | measureClaims => exact .inr (.inr (.refl _))
  | layout => exact .inr (.inr (.refl _))
  | applyLayout =>
      rcases c.applyLayout_cases with h | ⟨l, -, h⟩ <;> rw [perform, h]
      · exact .inr (.inr (.refl _))
      · exact .inr (.inr (.of_graph (Graph.keepsSizes_moveClaims _ l.outline) rfl rfl))
  | fit padding => exact .inr (.inl (hfits (c.fit_cases padding)))
  | fitVertically padding => exact .inr (.inl (hfits (c.fitVertically_cases padding)))
  | pointerDown point extend =>
      rcases c.pointerDown_cases point extend with h | ⟨id, -, -, h⟩ <;> rw [perform, h] <;>
        exact .inr (.inl (hkept rfl rfl rfl))
  | pointerMove point =>
      rcases c.pointerMove_cases point with ⟨-, cursor, h⟩ | ⟨press, dragging, dx, dy, -, h⟩ <;> rw [perform, h]
      · exact .inr (.inl (hkept rfl rfl rfl))
      · exact .inr (.inl (.of_graph (hmoved _ fun _ => ⟨rfl, rfl⟩) rfl rfl))
  | pointerUp point =>
      rcases c.pointerUp_cases point with ⟨-, -, h⟩ | ⟨-, -, h⟩ | ⟨-, selected, -, h⟩ <;> rw [perform, h]
      · exact .inr (.inl (hkept rfl rfl rfl))
      · exact .inr (.inl (.of_graph (hmoved _ fun _ => ⟨rfl, rfl⟩) rfl rfl))
      · exact .inr (.inl (.of_graph (hmoved _ fun _ => ⟨rfl, rfl⟩) rfl rfl))
  | keyDown key shift =>
      rcases c.keyDown_cases key shift with h | h | ⟨-, h⟩ | ⟨dx, dy, h⟩ <;> rw [perform, h]
      · exact .inr (.inl (.refl c))
      · refine .inr (.inl (deleteSelection_induction (P := c.KeepsSizes) (fun c' id hc' => ?_) (fun _ hc' => ?_)
          (.refl c)))
        · exact ⟨hc'.style, hc'.measure, hc'.graph.trans (c'.graph.keepsSizes_delete (.claim id))⟩
        · exact ⟨hc'.style, hc'.measure, hc'.graph⟩
      · exact .inr (.inl (hkept rfl rfl rfl))
      · exact .inr (.inl (.of_graph (hmoved _ fun _ => ⟨rfl, rfl⟩) rfl rfl))
  | frame =>
      rcases c.frame_cases with h | h <;> rw [perform, h]
      · exact .inr (.inl (.refl c))
      · exact .inr (.inr ⟨rfl, rfl, .refl _⟩)
  | draw => exact .inr (.inr ⟨rfl, rfl, .refl _⟩)
  | _ => exact .inr (.inl (hkept rfl rfl rfl))

/-- Whatever it does, texts are measured in the same way after it. -/
theorem measure_perform (c : Canvas α) (hoperation : operation.WritesNoSize) :
    (c.perform operation).surface.measure = c.surface.measure := by
  rcases c.sizes_perform_cases hoperation with ⟨edit, h⟩ | h | h
  · rw [h]
    rfl
  · exact h.measure
  · exact h.measure

/-- A rule for sizes that measuring meets is kept to, if sizes that are not forgotten when the style changes meet it
under the new style too. -/
theorem sized_perform (rule : Style α → List String → Size α → Prop)
    (hmeasured : ∀ lines, rule c.style lines (textSize c.surface c.style lines))
    (hagree : ∀ style : Style α, style.textMetrics.agree c.style.textMetrics = true →
      ∀ lines size, rule c.style lines size → rule style lines size)
    (hoperation : operation.WritesNoSize) (h : c.graph.Sized (rule c.style)) :
    (c.perform operation).graph.Sized (rule (c.perform operation).style) := by
  rcases c.sizes_perform_cases hoperation with ⟨edit, h'⟩ | h' | h'
  · rw [h']
    show (c.updateStyle edit).graph.Sized (rule (edit c.style))
    by_cases hkept : (edit c.style).textMetrics.agree c.style.textMetrics
    · rw [show (c.updateStyle edit).graph = c.graph from if_pos hkept]
      exact h.imp (hagree _ hkept)
    · rw [show (c.updateStyle edit).graph = c.graph.forgetSizes.2 from if_neg hkept]
      exact h.forgetSizes
  · rw [h'.style]
    exact h.keeps h'.graph
  · rw [h'.style]
    exact (h.measureClaims hmeasured).keeps h'.graph

end Canvas

/-! ### Sizes up to the sign of zero -/

/-- A claim has a width and a height, and they are those of a size. -/
def Claim.HasSize (c : Claim Float32) (size : Size Float32) : Prop :=
  ∃ known, c.placement.size? = some known ∧ known.Same size

instance (c : Claim Float32) (size : Size Float32) : Decidable (c.HasSize size) :=
  inferInstanceAs (Decidable (∃ known ∈ c.placement.size?, known.Same size))

namespace Graph

variable {g g' : Graph Float32} {sizeOf sizeOf' : List String → Size Float32}

/-- Each claim has no size, or that of its text. -/
def SizesFit (g : Graph Float32) (sizeOf : List String → Size Float32) : Prop :=
  ∀ id claim, g.claim? id = some claim → claim.placement.Unsized ∨ claim.HasSize (sizeOf claim.text)

theorem sizesFit_iff : g.SizesFit sizeOf ↔ g.Sized fun lines known => known.Same (sizeOf lines) := .rfl

/-- After measuring all claims have their sizes. -/
theorem SizesFit.hasSize_measureClaims (h : g.SizesFit sizeOf) {id : ClaimId} {claim' : Claim Float32}
    (hclaim' : (g.measureClaims sizeOf).2.claim? id = some claim') : claim'.HasSize (sizeOf claim'.text) :=
  (sizesFit_iff.1 h).exists_of_measureClaims (fun _ => .refl _) hclaim'

end Graph

namespace Canvas

variable {c : Canvas Float32}

/-- Claims have no size or that of their text in the style in force. -/
def Coherent (c : Canvas Float32) : Prop := c.graph.SizesFit (textSize c.surface c.style)

/-- A style under which texts have other sizes takes the sizes from all claims. -/
theorem coherent_perform (h : c.Coherent) (hscale : Scalar.beq c.style.scale 0.0 = false)
    {operation : CanvasOperation Float32} (hoperation : operation.WritesNoSize) :
    (c.perform operation).Coherent := by
  rw [Coherent, textSize_eq_of_measure (c.measure_perform hoperation)]
  refine sized_perform (fun style lines known => known.Same (textSize c.surface style lines))
    (fun _ => .refl _) (fun style hagree lines known hknown => ?_) hoperation h
  exact hknown.trans (same_textSize_of_agree hagree hscale c.surface lines).symm

/-- A run whose styles all have a scale keeps the sizes coherent. -/
theorem coherent_after (h : c.Coherent) {operations : List (CanvasOperation Float32)}
    (hoperations : ∀ operation ∈ operations, operation.WritesNoSize)
    (hscale : ∀ before, before <+: operations → Scalar.beq (c.after before).style.scale 0.0 = false) :
    (c.after operations).Coherent := by
  induction operations generalizing c with
  | nil => exact h
  | cons operation rest ih =>
      obtain ⟨hfirst, hrest⟩ := List.forall_mem_cons.1 hoperations
      refine ih (coherent_perform h (hscale [] (List.nil_prefix ..)) hfirst) hrest fun before hbefore => ?_
      exact hscale (operation :: before) (List.cons_prefix_cons.2 ⟨rfl, hbefore⟩)

/-- As long as only the canvas measures claims, no text is edited under a size, and no style has the scale
zero, each claim has neither width nor height, or it has the size that measuring its text under the style in
force would give: the widest line and the padding by the height of all lines and the padding. Once all is
drawn, every claim has that size. -/
theorem sizes_fit_style_in_force (surface : Surface Float32) (container : Size Float32) (style : Style Float32)
    {operations : List (CanvasOperation Float32)} (hoperations : ∀ operation ∈ operations, operation.WritesNoSize)
    (hscale : ∀ before, before <+: operations →
      Scalar.beq ((create surface container style).after before).style.scale 0.0 = false) :
    let c := (create surface container style).after operations
    let sizeOf (c : Canvas Float32) (lines : List String) : Size Float32 :=
      let font : Font Float32 := ⟨"", c.style.scale * c.style.fontSize, c.style.fontFamily⟩
      let widest := (lines.map (c.surface.measureText · font)).foldl Scalar.max 0.0
      ⟨widest / c.style.scale + 2.0 * c.style.padding,
        Scalar.count lines.length * c.style.lineHeight + 2.0 * c.style.padding⟩
    (∀ id claim, c.graph.claim? id = some claim → claim.placement.Unsized ∨ claim.HasSize (sizeOf c claim.text)) ∧
    ∀ id claim, c.draw.graph.claim? id = some claim →
      claim.HasSize (sizeOf c.draw claim.text) ∧ c.draw.style = c.style := by
  intro c sizeOf
  have hsizeOf : ∀ c : Canvas Float32, sizeOf c = textSize c.surface c.style := fun _ => rfl
  rw [hsizeOf, hsizeOf]
  have hcoherent : c.Coherent := by
    refine coherent_after (fun id claim hclaim => ?_) hoperations hscale
    simp [create, fitSurface, Graph.claim?, Graph.empty] at hclaim
  refine ⟨hcoherent, fun id claim hclaim => ⟨?_, rfl⟩⟩
  have hdrawn : c.draw.surface.measure = c.surface.measure := rfl
  rw [textSize_eq_of_measure hdrawn]
  exact Graph.SizesFit.hasSize_measureClaims hcoherent hclaim

/-- A claim that is measured before the scale and the font size change. -/
theorem sizes_fit_style_in_force_of_larger_font :
    let operations : List (CanvasOperation Float32) :=
      [.addClaim "Streets are wet" .plain, .measureClaims, .editGraph (·.after [.addClaim "It rains" .plain]),
        .updateStyle fun style => { style with scale := 2.0, fontSize := 20.0 }]
    let start := create (.blank 0 0 .estimate) ⟨100.0, 100.0⟩ (.ofTheme .classic 1.0)
    let c := start.after operations
    let sizeOf (c : Canvas Float32) (lines : List String) : Size Float32 :=
      let font : Font Float32 := ⟨"", c.style.scale * c.style.fontSize, c.style.fontFamily⟩
      let widest := (lines.map (c.surface.measureText · font)).foldl Scalar.max 0.0
      ⟨widest / c.style.scale + 2.0 * c.style.padding,
        Scalar.count lines.length * c.style.lineHeight + 2.0 * c.style.padding⟩
    (∀ operation ∈ operations, operation.WritesNoSize) ∧
    (∀ before, before <+: operations → Scalar.beq (start.after before).style.scale 0.0 = false) ∧
    ∃ claim, c.draw.graph.claim? ⟨0⟩ = some claim ∧ claim.HasSize (sizeOf c.draw claim.text) := by
  intro operations
  have hoperations : ∀ operation ∈ operations, operation.WritesNoSize := by
    have hadds : ∀ operation ∈ ([.addClaim "It rains" .plain] : List (Operation Float32)),
        operation.WritesNoSize := by
      simp [Operation.WritesNoSize]
    simp only [operations, List.forall_mem_cons]
    exact ⟨trivial, trivial, .of_operations hadds, trivial, List.forall_mem_nil _⟩
  have hone : Scalar.beq (1.0 : Float32) 0.0 = false := by decide +kernel
  have htwo : Scalar.beq (2.0 : Float32) 0.0 = false := by decide +kernel
  have hscale : ∀ before, before <+: operations → Scalar.beq ((create (.blank 0 0 .estimate) ⟨100.0, 100.0⟩
      (.ofTheme .classic 1.0)).after before).style.scale 0.0 = false := by
    intro before hbefore
    rw [← List.mem_inits] at hbefore
    simp only [operations, List.inits, List.map_cons, List.map_nil, List.mem_cons, List.not_mem_nil, or_false]
      at hbefore
    rcases hbefore with rfl | rfl | rfl | rfl | rfl
    · exact hone
    · exact hone
    · exact hone
    · exact hone
    · exact htwo
  have hlive : (((create (.blank 0 0 .estimate) ⟨100.0, 100.0⟩ (.ofTheme .classic 1.0)).after
      operations).draw.graph.claim? ⟨0⟩).isSome = true := by decide +kernel
  obtain ⟨claim, hclaim⟩ := Option.isSome_iff_exists.1 hlive
  have h := sizes_fit_style_in_force (.blank 0 0 .estimate) ⟨100.0, 100.0⟩ (.ofTheme .classic 1.0) hoperations hscale
  exact ⟨hoperations, hscale, claim, hclaim, (h.2 _ claim hclaim).1⟩

/-- A text that is edited once it is measured: no size is written, but the claim keeps the size of its former
text, also when all is drawn. And a height that overflows on the way: two lines are higher than any number,
though with so little padding the claim would not be. -/
theorem exists_size_of_former_text :
    let start := create (.blank 0 0 .estimate) ⟨100.0, 100.0⟩ (.ofTheme .classic 1.0)
    let retold (g : Graph Float32) := g.editClaim ⟨0⟩ fun c => { c with text := ["It has been raining"] }
    let operations := [.addClaim "It rains" .plain, .measureClaims, .editGraph retold]
    let c := start.after operations
    let high (style : Style Float32) : Style Float32 := { style with lineHeight := 3e38, padding := -1.7e38 }
    let overflown := start.after [.updateStyle high, .addClaim "a\nb" .plain, .measureClaims]
    ((∀ g id, ((retold g).claim? id).map (·.placement) = (g.claim? id).map (·.placement)) ∧
      (∀ before, before <+: operations → (start.after before).style = .ofTheme .classic 1.0) ∧
      ∃ claim, c.draw.graph.claim? ⟨0⟩ = some claim ∧ ¬claim.placement.Unsized ∧
        ¬claim.HasSize (textSize c.draw.surface c.draw.style claim.text)) ∧
    (overflown.style.lineHeight.isFinite ∧ overflown.style.padding.isFinite) ∧
      ∃ claim height, overflown.graph.claim? ⟨0⟩ = some claim ∧ claim.placement.height = some height ∧
        ¬height.isFinite := by
  intro start retold operations c high overflown
  have hsame : ∀ g id, ((retold g).claim? id).map (·.placement) = (g.claim? id).map (·.placement) := by
    intro g id
    rw [Graph.claim?_editClaim, Option.map_map]
    congr 1
    funext claim
    by_cases h : id = ⟨0⟩ <;> simp [h]
  have hstyle : ∀ before, before <+: operations → (start.after before).style = .ofTheme .classic 1.0 := by
    intro before hbefore
    rw [← List.mem_inits] at hbefore
    simp only [operations, List.inits, List.map_cons, List.map_nil, List.mem_cons, List.not_mem_nil, or_false]
      at hbefore
    rcases hbefore with rfl | rfl | rfl | rfl <;> rfl
  have hformer : ∃ claim ∈ c.draw.graph.claim? ⟨0⟩, ¬claim.placement.Unsized ∧
      ¬claim.HasSize (textSize c.draw.surface c.draw.style claim.text) := by decide +kernel
  have hheight : ∃ height ∈ (overflown.graph.claim? ⟨0⟩).bind (·.placement.height), ¬height.isFinite := by
    decide +kernel
  obtain ⟨height, hheight, hoverflow⟩ := hheight
  obtain ⟨claim, hclaim, hheight⟩ := Option.bind_eq_some_iff.1 hheight
  exact ⟨⟨hsame, hstyle, hformer⟩, by decide +kernel, claim, height, hclaim, hheight, hoverflow⟩

end Canvas

end ArgumentDiagram
