import ArgumentDiagram.Proofs.Canvas.Run
import ArgumentDiagram.Proofs.Drawing.Marks
import ArgumentDiagram.Proofs.Graph.Reachable

/-!
The selection of a canvas. As long as claims are deleted by way of the canvas, the selection holds live claims
only, and none of them twice. Main statement: so a drop names the claims that were dragged, and a frame shows
all that is there, and each thing once.
-/

namespace ArgumentDiagram

variable {α : Type} [Scalar α]

/-- No claim is deleted. -/
def Operation.KeepsClaims : Operation α → Prop
  | .delete (.claim _) => False
  | _ => True

namespace Graph

variable {g g' g'' : Graph α}

/-- What a change that deletes no claim owes to the graph before. -/
structure Retains (g g' : Graph α) : Prop where
  wellFormed : g'.WellFormed
  contains : ∀ id, g.contains (.claim id) → g'.contains (.claim id)

omit [Scalar α] in
theorem Retains.trans (h : g.Retains g') (h' : g'.Retains g'') : g.Retains g'' :=
  ⟨h'.wellFormed, fun id hlive => h'.contains id (h.contains id hlive)⟩

omit [Scalar α] in
theorem WellFormed.retains (h : g.WellFormed) : g.Retains g := ⟨h, fun _ hlive => hlive⟩

omit [Scalar α] in
theorem SameEntities.retains (h : g.SameEntities g') (hg : g.WellFormed) : g.Retains g' where
  wellFormed := h.wellFormed hg
  contains id hlive := h.contains (.claim id) ▸ hlive

omit [Scalar α] in
theorem SameArgument.retains (h : g.SameArgument g') (hg : g.WellFormed) : g.Retains g' :=
  h.sameEntities.retains hg

omit [Scalar α] in
theorem Grows.retains (h : g.Grows g') (hg : g'.WellFormed) : g.Retains g' :=
  ⟨hg, fun _ hlive => h.contains hlive⟩

theorem retains_perform (h : g.WellFormed) {operation : Operation α} (hoperation : operation.KeepsClaims) :
    g.Retains (g.perform operation).2 := by
  cases operation with
  | addClaim text metadata => exact (grows_addClaim h text metadata).retains (h.addClaim text metadata)
  | addRelation sources target kind metadata =>
      rw [perform]
      split
      next added g' hadd =>
        obtain ⟨hwf, hgrows, -⟩ := addRelation_wellFormed_grows h hadd
        exact hgrows.retains hwf
      next => exact h.retains
  | delete entity =>
      cases entity with
      | claim id => exact hoperation.elim
      | relation id =>
          have hremoves := removes_delete h (.relation id)
          refine ⟨hremoves.wellFormed h, fun other hlive => hremoves.contains_claim ?_ hlive⟩
          rw [Graph.delete.eq_def]
          split <;> simp [Deleted.none]
  | measure sizeOf => exact (sameArgument_measureClaims g sizeOf).retains h
  | forgetSizes => exact (sameArgument_forgetSizes g).retains h
  | updateClaim id f => exact (sameArgument_updateClaim g id f).retains h
  | updateAll f => exact (sameArgument_updateAll g f).retains h
  | applyLayout layout => exact (sameArgument_moveClaims g layout.outline).retains h
  | loadPayload payload =>
      rw [perform]
      split
      next loaded g' hload =>
        obtain ⟨hwf, hgrows, -⟩ := Payload.load_grows h hload
        exact hgrows.retains hwf
      next => exact h.retains
  | loadScript script =>
      rw [perform]
      split
      next vars g' hload =>
        obtain ⟨hwf, hgrows, -⟩ := Script.load_grows h hload
        exact hgrows.retains hwf
      next => exact h.retains

theorem retains_after (h : g.WellFormed) {operations : List (Operation α)}
    (hoperations : ∀ operation ∈ operations, operation.KeepsClaims) : g.Retains (g.after operations) := by
  induction operations generalizing g with
  | nil => exact h.retains
  | cons operation rest ih =>
      obtain ⟨hfirst, hrest⟩ := List.forall_mem_cons.1 hoperations
      have hstep := retains_perform h hfirst
      exact hstep.trans (ih hstep.wellFormed hrest)

omit [Scalar α] in
theorem sameArgument_updateClaims (g : Graph α) (ids : List ClaimId) (f : Placement α → Placement α) :
    g.SameArgument (g.updateClaims ids f) := by
  induction ids generalizing g with
  | nil => exact .refl g
  | cons id rest ih => exact (sameArgument_updateClaim g id f).trans (ih _)

omit [Scalar α] in
theorem claimIds_measureClaims (g : Graph α) (sizeOf : List String → Size α) :
    (g.measureClaims sizeOf).2.claimIds = g.claimIds := by
  rw [measureClaims, updateWhere]
  split
  · rfl
  · exact Table.keys_mapValues ..

end Graph

namespace CanvasOperation

/-- Whatever works on the graph itself keeps the invariant and deletes no claim. -/
def KeepsClaims : CanvasOperation α → Prop
  | .editGraph edit => ∀ g : Graph α, g.WellFormed → g.Retains (edit g)
  | _ => True

theorem KeepsClaims.of_operations {operations : List (Operation α)}
    (hoperations : ∀ operation ∈ operations, operation.KeepsClaims) :
    (CanvasOperation.editGraph (·.after operations)).KeepsClaims :=
  fun _ hg => Graph.retains_after hg hoperations

omit [Scalar α] in
theorem KeepsClaims.of_editClaim (id : ClaimId) {edit : Claim α → Claim α} (hid : ∀ c, (edit c).id = c.id) :
    (CanvasOperation.editGraph (·.editClaim id edit)).KeepsClaims :=
  fun g hg => (g.sameEntities_editClaim id hid).retains hg

end CanvasOperation

namespace Canvas

variable {c c' : Canvas α}

/-! ### What one operation preserves -/

/-- All that is selected is live, and nothing is selected twice. -/
structure Sound (c : Canvas α) : Prop where
  wellFormed : c.graph.WellFormed
  nodup : c.selected.Nodup
  live : ∀ id ∈ c.selected, c.graph.contains (.claim id)

namespace Sound

omit [Scalar α] in
theorem of_retains (h : c.Sound) (hgraph : c.graph.Retains c'.graph) (hselected : c'.selected = c.selected) :
    c'.Sound where
  wellFormed := hgraph.wellFormed
  nodup := hselected ▸ h.nodup
  live id hmem := hgraph.contains id (h.live id (hselected ▸ hmem))

omit [Scalar α] in
theorem of_sameArgument (h : c.Sound) (hgraph : c.graph.SameArgument c'.graph)
    (hselected : c'.selected = c.selected) : c'.Sound :=
  h.of_retains (hgraph.retains h.wellFormed) hselected

omit [Scalar α] in
/-- Fewer or other claims may be selected. -/
theorem of_selected (h : c.Sound) (hgraph : c'.graph = c.graph) (hnodup : c'.selected.Nodup)
    (hlive : ∀ id ∈ c'.selected, c.graph.contains (.claim id)) : c'.Sound :=
  ⟨hgraph ▸ h.wellFormed, hnodup, hgraph ▸ hlive⟩

omit [Scalar α] in
/-- What a deletion takes from the graph, it takes from the selection. -/
theorem delete (h : c.Sound) (entity : Entity) : (c.delete entity).2.Sound where
  wellFormed := (Graph.removes_delete h.wellFormed entity).wellFormed h.wellFormed
  nodup := h.nodup.filter _
  live id hmem := by
    have hkept : id ∈ c.selected ∧ (!(c.graph.delete entity).1.claims.contains id) = true :=
      List.mem_filter.1 hmem
    refine (Graph.removes_delete h.wellFormed entity).contains_claim ?_ (h.live id hkept.1)
    simpa using hkept.2

theorem measureClaims (h : c.Sound) : c.measureClaims.2.Sound :=
  h.of_sameArgument (Graph.sameArgument_measureClaims ..) rfl

omit [Scalar α] in
theorem fits (h : c.Sound) (hfits : c' = c ∨ c.Rearranges c') : c'.Sound := by
  rcases hfits with rfl | ⟨anchor, size, rfl⟩
  · exact h
  · exact h.of_sameArgument (Graph.sameArgument_updateAll ..) rfl

theorem updateStyle (h : c.Sound) (edit : Style α → Style α) : (c.updateStyle edit).Sound := by
  obtain ⟨g, palette, rfl | rfl, h'⟩ := c.updateStyle_cases edit <;> rw [h']
  · exact h.of_retains h.wellFormed.retains rfl
  · exact h.of_sameArgument (Graph.sameArgument_forgetSizes _) rfl

/-- What is under the pointer is live. -/
theorem live_claimAt (h : c.Sound) {point : Point α} {id : ClaimId} (hat : c.claimAt point = some id) :
    c.graph.contains (.claim id) := by
  obtain ⟨claim, hfind, rfl⟩ := Option.map_eq_some_iff.1 hat
  obtain ⟨key, hclaim⟩ := Table.mem_values_iff.1 (List.mem_of_find?_eq_some hfind)
  rw [h.wellFormed.claim_key hclaim]
  exact Graph.contains_claim_iff.2 ⟨claim, hclaim⟩

theorem pointerDown (h : c.Sound) (point : Point α) (extend : Bool) : (c.pointerDown point extend).Sound := by
  rcases c.pointerDown_cases point extend with h' | ⟨id, hat, hnew, h'⟩ <;> rw [h']
  · exact h.of_retains h.wellFormed.retains rfl
  · have hlive := h.live_claimAt hat
    cases extend with
    | false => exact h.of_selected rfl (List.nodup_singleton id) fun other hmem => List.mem_singleton.1 hmem ▸ hlive
    | true =>
        refine h.of_selected rfl ?_ fun other hmem => ?_
        · exact List.nodup_append.2 ⟨h.nodup, List.nodup_singleton id,
            fun a ha b hb heq => hnew (List.mem_singleton.1 hb ▸ heq ▸ ha)⟩
        · rcases List.mem_append.1 hmem with hmem | hmem
          · exact h.live other hmem
          · exact List.mem_singleton.1 hmem ▸ hlive

theorem pointerUp (h : c.Sound) (point : Point α) : (c.pointerUp point).Sound := by
  rcases c.pointerUp_cases point with ⟨-, -, h'⟩ | ⟨-, -, h'⟩ | ⟨-, selected, hselected, h'⟩ <;> rw [h']
  · exact h.of_retains h.wellFormed.retains rfl
  · exact h.of_sameArgument (Graph.sameArgument_updateClaims ..) rfl
  · have hmoved : ({ c with graph := c.graph.updateClaims c.selected (·.dragBy 0.0 0.0) } : Canvas α).Sound :=
      h.of_sameArgument (Graph.sameArgument_updateClaims ..) rfl
    rcases hselected with rfl | rfl
    · exact hmoved.of_retains hmoved.wellFormed.retains rfl
    · exact hmoved.of_selected rfl .nil (List.forall_mem_nil _)

theorem keyDown (h : c.Sound) (key : Key) (shift : Bool) : (c.keyDown key shift).2.Sound := by
  rcases c.keyDown_cases key shift with h' | h' | ⟨-, h'⟩ | ⟨dx, dy, h'⟩ <;> rw [h']
  · exact h
  · exact deleteSelection_induction (fun c id hc => hc.delete (.claim id))
      (fun c hc => hc.of_retains hc.wellFormed.retains rfl) h
  · obtain ⟨next, hnext, h'⟩ := c.selectNext_cases shift
    rw [h']
    refine h.of_selected rfl ?_ fun id hmem => ?_
    · cases next with
      | none => exact .nil
      | some id => exact List.nodup_singleton id
    · exact Graph.mem_claimIds_iff.1 (hnext id (Option.mem_toList.1 hmem))
  · exact h.of_sameArgument (Graph.sameArgument_updateClaims ..) rfl

end Sound

theorem sound_perform (c : Canvas α) (operation : CanvasOperation α) (hoperation : operation.KeepsClaims)
    (h : c.Sound) : (c.perform operation).Sound := by
  have hsame : ∀ {c' : Canvas α}, c'.graph = c.graph → c'.selected = c.selected → c'.Sound :=
    fun hgraph hselected => h.of_retains (hgraph ▸ h.wellFormed.retains) hselected
  cases operation with
  | addClaim text metadata =>
      have hgrows := Graph.grows_addClaim h.wellFormed text metadata
      exact h.of_retains (hgrows.retains (h.wellFormed.addClaim text metadata)) rfl
  | addRelation sources target kind metadata =>
      rcases c.addRelation_cases sources target kind metadata with h' | ⟨id, g, hadd, h'⟩ <;> rw [h']
      · exact h
      · obtain ⟨hwf, hgrows, -⟩ := Graph.addRelation_wellFormed_grows h.wellFormed hadd
        exact h.of_retains (hgrows.retains hwf) rfl
  | delete entity => exact h.delete entity
  | editGraph edit => exact h.of_retains (hoperation c.graph h.wellFormed) rfl
  | updateStyle edit => exact h.updateStyle edit
  | setStyle style => exact h.updateStyle fun _ => style
  | setFocus focused =>
      rcases c.setFocus_cases focused with h' | h' <;> rw [perform, h'] <;> exact hsame rfl rfl
  | measureClaims => exact h.measureClaims
  | layout => exact h.measureClaims
  | applyLayout =>
      rcases c.applyLayout_cases with h' | ⟨l, -, h'⟩ <;> rw [perform, h']
      · exact h.measureClaims
      · exact h.measureClaims.of_sameArgument (Graph.sameArgument_moveClaims _ l.outline) rfl
  | fit padding => exact h.fits (c.fit_cases padding)
  | fitVertically padding => exact h.fits (c.fitVertically_cases padding)
  | pointerDown point extend => exact h.pointerDown point extend
  | pointerMove point =>
      rcases c.pointerMove_cases point with ⟨-, cursor, h'⟩ | ⟨press, dragging, dx, dy, -, h'⟩ <;> rw [perform, h']
      · exact hsame rfl rfl
      · exact h.of_sameArgument (Graph.sameArgument_updateClaims ..) rfl
  | pointerUp point => exact h.pointerUp point
  | keyDown key shift => exact h.keyDown key shift
  | frame =>
      rcases c.frame_cases with h' | h' <;> rw [perform, h']
      · exact h
      · exact h.measureClaims.of_retains h.measureClaims.wellFormed.retains rfl
  | draw => exact h.measureClaims.of_retains h.measureClaims.wellFormed.retains rfl
  | _ => exact hsame rfl rfl

/-- A recorded press is at one of the points where the pointer went down. -/
theorem pressedAt_perform {points : Set (Point α)} (c : Canvas α) (operation : CanvasOperation α)
    (hoperation : ∀ point extend, operation = .pointerDown point extend → point ∈ points)
    (h : ∀ press, c.press = some press → press.start ∈ points) :
    ∀ press, (c.perform operation).press = some press → press.start ∈ points := by
  intro press hpress
  rcases c.press_perform_cases operation with h' | ⟨point, extend, hdown, h'⟩ |
    ⟨point, before, dragging, -, hbefore, h'⟩ | ⟨point, -, h'⟩ <;> rw [h'] at hpress
  · exact h press hpress
  · obtain rfl := Option.some.inj hpress
    exact hoperation point extend hdown
  · obtain rfl := Option.some.inj hpress
    exact h before hbefore
  · cases hpress

/-- A release tells the listeners of drops about all that is selected, if it ends a drag of anything. -/
theorem calls_pointerUp (c : Canvas α) (point : Point α) : (c.pointerUp point).events.calls =
    c.events.calls ++ if c.interaction = .dragging ∧ c.selected ≠ [] then
      (c.events.listenersOf dropEvent).map (·, .drop c.selected) else [] := by
  rcases c.pointerUp_cases point with ⟨-, hnone, h⟩ | ⟨hdragging, hsome, h⟩ | ⟨hidle, selected, -, h⟩ <;> rw [h]
  · rw [if_neg fun hdrop => hdrop.2 hnone, List.append_nil]
  · rw [if_pos ⟨hdragging, hsome⟩]
    rfl
  · rw [if_neg fun hdrop => hidle hdrop.1, List.append_nil]
    rfl

/-- A frame shows the relations, then `painted`, then the outlines of `selected`, and then `boxes`. -/
structure Paints (c : Canvas α) (painted selected : List (Claim α)) (boxes : List (Mark α)) : Prop where
  painted_ids : painted.map (·.id) = Scene.paintOrder c.graph c.selected
  selected_ids : selected.map (·.id) = c.selected
  /-- They are the claims as they are once they are measured. -/
  stored : ∀ claim ∈ painted ++ selected, c.draw.graph.claim? claim.id = some claim
  boxes_length : boxes.length = if c.style.debugLayout then (c.outline.getD []).length else 0
  marks : c.draw.surface.elements.map Element.mark =
    c.graph.relations.values.flatMap Relation.marks ++ painted.flatMap (Claim.marks c.style.scale) ++
      selected.map (Claim.selectionMark c.style.scale) ++ boxes

theorem Sound.exists_paints (h : c.Sound) : ∃ painted selected boxes, c.Paints painted selected boxes := by
  have hm : c.measureClaims.2.Sound := h.measureClaims
  have hsame : c.graph.SameArgument c.measureClaims.2.graph := Graph.sameArgument_measureClaims ..
  have hselected : ∀ id ∈ c.selected, c.measureClaims.2.graph.contains (.claim id) := hm.live
  have horder : Scene.paintOrder c.measureClaims.2.graph c.selected = Scene.paintOrder c.graph c.selected := by
    have hids : c.measureClaims.2.graph.claimIds = c.graph.claimIds := Graph.claimIds_measureClaims ..
    rw [Scene.paintOrder_of_live hselected, Scene.paintOrder_of_live h.live, hids]
  have hlive : ∀ id ∈ Scene.paintOrder c.measureClaims.2.graph c.selected,
      c.measureClaims.2.graph.contains (.claim id) := by
    intro id hmem
    exact Graph.mem_claimIds_iff.1 ((Scene.paintOrder_perm h.nodup hselected).mem_iff.1 hmem)
  refine ⟨(Scene.paintOrder c.measureClaims.2.graph c.selected).filterMap c.measureClaims.2.graph.claim?,
    c.selected.filterMap c.measureClaims.2.graph.claim?, c.measureClaims.2.scene.outlineElements.map Element.mark,
    ?_, ?_, ?_, ?_, ?_⟩
  · rw [hm.wellFormed.ids_filterMap_claim? hlive, horder]
  · exact hm.wellFormed.ids_filterMap_claim? hselected
  · intro claim hmem
    rw [← List.filterMap_append] at hmem
    obtain ⟨id, -, hclaim⟩ := List.mem_filterMap.1 hmem
    rw [hm.wellFormed.claim_key hclaim]
    exact hclaim
  · rw [List.length_map, Scene.length_outlineElements]
    rfl
  · have hrelations := Scene.marks_relationElements (s := c.measureClaims.2.scene) hm.wellFormed
    have helements : c.draw.surface.elements = (c.measureClaims.2.scene.elements c.palette).1 := rfl
    rw [helements, Scene.elements]
    dsimp only
    rw [List.map_append, List.map_append, List.map_append, hrelations, Scene.marks_claimsElements,
      Scene.marks_selectionElements]
    rw [show c.measureClaims.2.scene.graph.relations = c.graph.relations from hsame.relations]
    rfl

/-- Whatever is done to a canvas without deleting claims behind its back: the selection holds live claims, and
each once; a drag has started where the pointer went down; a drop names what is selected; claims are painted
once each, the selection last; and a frame shows all relations, all claims, the selection and the layout. -/
theorem selection_live_and_painted (surface : Surface α) (container : Size α) (style : Style α)
    {operations : List (CanvasOperation α)} (hoperations : ∀ operation ∈ operations, operation.KeepsClaims) :
    let c := (create surface container style).after operations
    (c.selected.Nodup ∧ ∀ id ∈ c.selected, c.graph.contains (.claim id)) ∧
    (c.interaction = .dragging →
      ∃ press extend, c.press = some press ∧ .pointerDown press.start extend ∈ operations) ∧
    (∀ point, (c.pointerUp point).events.calls = c.events.calls ++
      if c.interaction = .dragging ∧ c.selected ≠ [] then
        (c.events.listenersOf dropEvent).map (·, .drop c.selected) else []) ∧
    (c.graph.claimIds.Pairwise (·.index < ·.index) ∧
      Scene.paintOrder c.graph c.selected = c.graph.claimIds.filter (!c.selected.contains ·) ++ c.selected ∧
      (Scene.paintOrder c.graph c.selected).Perm c.graph.claimIds) ∧
    ∃ painted selected boxes, c.Paints painted selected boxes := by
  intro c
  have hcreate : (create surface container style).Sound := ⟨Graph.wellFormed_empty, .nil, List.forall_mem_nil _⟩
  have hsound : c.Sound := after_induction sound_perform hoperations hcreate
  have hpress : ∀ press, c.press = some press →
      press.start ∈ {point | ∃ extend, .pointerDown point extend ∈ operations} := by
    refine after_induction pressedAt_perform (fun operation hmem point extend hdown => ?_)
      (by simp [create, fitSurface])
    exact ⟨extend, hdown ▸ hmem⟩
  refine ⟨⟨hsound.nodup, hsound.live⟩, fun hdragging => ?_, c.calls_pointerUp,
    ⟨?_, Scene.paintOrder_of_live hsound.live, Scene.paintOrder_perm hsound.nodup hsound.live⟩,
    hsound.exists_paints⟩
  · cases hcase : c.press with
    | none => simp [interaction, hcase] at hdragging
    | some press =>
        obtain ⟨extend, hdown⟩ := hpress press hcase
        exact ⟨press, extend, rfl, hdown⟩
  · exact List.pairwise_map.2 (c.graph.claims.ascending.imp of_decide_eq_true)

/-- A claim that is selected while another one is added behind the canvas's back, and then put in other words. -/
theorem selection_live_and_painted_after_tab :
    let operations : List (CanvasOperation Float32) :=
      [.addClaim "Streets are wet" .plain, .editGraph (·.after [.addClaim "It rains" .plain]),
        .addRelation [⟨1⟩] (.claim ⟨0⟩) (some .support) .plain, .keyDown .tab false,
        .editGraph (·.editClaim ⟨0⟩ fun c => { c with text := ["Roads are wet"] })]
    let c := (create (.blank 0 0 .estimate) ⟨100.0, 100.0⟩ (.ofTheme .classic 1.0)).after operations
    (∀ operation ∈ operations, operation.KeepsClaims) ∧ c.selected = [⟨0⟩] ∧
      (∀ id ∈ c.selected, c.graph.contains (.claim id)) ∧
      ∃ painted selected boxes, c.Paints painted selected boxes := by
  intro operations c
  have hoperations : ∀ operation ∈ operations, operation.KeepsClaims := by
    have hadds : ∀ operation ∈ ([.addClaim "It rains" .plain] : List (Operation Float32)),
        operation.KeepsClaims := by
      simp [Operation.KeepsClaims]
    simp only [operations, List.forall_mem_cons]
    exact ⟨trivial, .of_operations hadds, trivial, trivial,
      .of_editClaim ⟨0⟩ fun _ => rfl, List.forall_mem_nil _⟩
  have h := selection_live_and_painted (.blank 0 0 .estimate) ⟨100.0, 100.0⟩ (.ofTheme .classic 1.0) hoperations
  exact ⟨hoperations, rfl, h.1.2, h.2.2.2.2⟩

end Canvas

end ArgumentDiagram
