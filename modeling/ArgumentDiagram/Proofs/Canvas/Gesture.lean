import ArgumentDiagram.Proofs.Canvas.Run
import ArgumentDiagram.Proofs.Graph.Reachable

/-!
Drag offsets. A claim that is dragged has one for as long as the pointer is down and the claim is selected,
and the release takes it back. Only another press or the tab key can deselect a claim under a pressed pointer
and leave it standing with its offset. Main statement: a claim that is not let go of in this way has no offset
once the pointer is up.
-/

namespace ArgumentDiagram

variable {α : Type} [Scalar α]

namespace Graph

variable {g g' : Graph α} {id : ClaimId}

/-- A claim, if it is live, stands where its anchor is. -/
def Rests (g : Graph α) (id : ClaimId) : Prop :=
  ∀ claim, g.claim? id = some claim → claim.placement.offset = ⟨0.0, 0.0⟩

omit [Scalar α] in
theorem claim?_delete (g : Graph α) (entity : Entity) (id : ClaimId) : (g.delete entity).2.claim? id =
    if id ∈ (g.delete entity).1.claims then none else g.claim? id := by
  rw [delete.eq_def]
  split
  · cases entity with
    | claim other =>
        rw [claim?, Table.get?_erase, claim?]
        simp
    | relation other => simp [claim?]
  · simp [Deleted.none]

namespace Rests

theorem delete (h : g.Rests id) (entity : Entity) : (g.delete entity).2.Rests id := by
  intro claim hclaim
  rw [claim?_delete] at hclaim
  split at hclaim
  · cases hclaim
  · exact h claim hclaim

theorem addClaim (h : g.Rests id) (text : String) (metadata : Metadata) :
    (g.addClaim text metadata).2.Rests id := by
  intro claim hclaim
  rw [claim?_addClaim] at hclaim
  split at hclaim
  · obtain rfl := Option.some.inj hclaim
    rfl
  · exact h claim hclaim

theorem pushFeeders (h : g.Rests id) (joint : ClaimId) (metadata : Metadata) (sources : List ClaimId) :
    (g.pushFeeders joint metadata sources).Rests id := by
  induction sources generalizing g with
  | nil => exact h
  | cons source rest ih =>
      have hpush : (g.pushRelation source (.claim joint) none metadata).2.Rests id := h
      exact ih hpush

theorem addRelation (h : g.Rests id) {sources : List ClaimId} {target : Entity} {kind : Option RelationKind}
    {metadata : Metadata} {added : Option RelationId}
    (hadd : g.addRelation sources target kind metadata = .ok (added, g')) : g'.Rests id := by
  rcases addRelation_cases hadd with ⟨-, -, rfl⟩ | ⟨source, -, -, -, -, rfl⟩ | ⟨-, -, -, -, rfl⟩
  · exact h
  · exact h
  · exact (h.addClaim joinText .plain).pushFeeders _ metadata sources

theorem updateClaim (h : g.Rests id) (other : ClaimId) {f : Placement α → Placement α}
    (hf : ∀ p, p.offset = ⟨0.0, 0.0⟩ → (f p).offset = ⟨0.0, 0.0⟩) : (g.updateClaim other f).Rests id := by
  intro claim hclaim
  rw [claim?_updateClaim, Option.map_eq_some_iff] at hclaim
  obtain ⟨before, hbefore, rfl⟩ := hclaim
  split
  · exact hf _ (h before hbefore)
  · exact h before hbefore

theorem updateClaims (h : g.Rests id) (ids : List ClaimId) {f : Placement α → Placement α}
    (hf : ∀ p, p.offset = ⟨0.0, 0.0⟩ → (f p).offset = ⟨0.0, 0.0⟩) : (g.updateClaims ids f).Rests id := by
  induction ids generalizing g with
  | nil => exact h
  | cons other rest ih => exact ih (h.updateClaim other hf)

theorem moveClaims (h : g.Rests id) (outline : Outline α) : (Layout.moveClaims outline g).Rests id := by
  induction outline generalizing g with
  | nil => exact h
  | cons placed rest ih =>
      rw [Layout.moveClaims, List.foldl_cons]
      refine ih ?_
      split
      · exact h.updateClaim _ fun p hp => hp
      · exact h

theorem updateAll (h : g.Rests id) {f : Claim α → Placement α}
    (hf : ∀ claim, (f claim).offset = claim.placement.offset) : (g.updateAll f).Rests id := by
  intro claim hclaim
  rw [claim?, Graph.updateAll, Table.get?_mapValues, Option.map_eq_some_iff] at hclaim
  obtain ⟨before, hbefore, rfl⟩ := hclaim
  exact (hf before).trans (h before hbefore)

theorem updateWhere (h : g.Rests id) (which : Claim α → Bool) {f : Claim α → Claim α}
    (hf : ∀ claim, (f claim).placement.offset = claim.placement.offset) :
    (g.updateWhere which f).2.Rests id := by
  intro claim hclaim
  rw [claim?_updateWhere, Option.map_eq_some_iff] at hclaim
  obtain ⟨before, hbefore, rfl⟩ := hclaim
  split
  · exact (hf before).trans (h before hbefore)
  · exact h before hbefore

theorem measureClaims (h : g.Rests id) (sizeOf : List String → Size α) : (g.measureClaims sizeOf).2.Rests id :=
  h.updateWhere _ fun _ => rfl

theorem forgetSizes (h : g.Rests id) : g.forgetSizes.2.Rests id := h.updateWhere _ fun _ => rfl

end Rests

/-- What takes the offset from all claims of a list takes it from each of them. -/
theorem rests_updateClaims {ids : List ClaimId} (hmem : id ∈ ids) {f : Placement α → Placement α}
    (hf : ∀ p, (f p).offset = ⟨0.0, 0.0⟩) : (g.updateClaims ids f).Rests id := by
  induction ids generalizing g with
  | nil => cases hmem
  | cons first rest ih =>
      by_cases hrest : id ∈ rest
      · exact ih hrest
      · obtain rfl : id = first := (List.mem_cons.1 hmem).resolve_right hrest
        have hfirst : (g.updateClaim id f).Rests id := by
          intro claim hclaim
          rw [claim?_updateClaim, if_pos rfl, Option.map_eq_some_iff] at hclaim
          obtain ⟨before, -, rfl⟩ := hclaim
          exact hf _
        exact hfirst.updateClaims rest fun p _ => hf p

omit [Scalar α] in
theorem claim?_updateClaims_of_not_mem {ids : List ClaimId} (hmem : id ∉ ids)
    (f : Placement α → Placement α) : (g.updateClaims ids f).claim? id = g.claim? id := by
  induction ids generalizing g with
  | nil => rfl
  | cons first rest ih =>
      obtain ⟨hfirst, hrest⟩ := List.ne_and_not_mem_of_not_mem_cons hmem
      rw [updateClaims, List.foldl_cons, ← updateClaims, ih hrest, claim?_updateClaim, if_neg hfirst,
        Option.map_id']

end Graph

namespace Canvas

variable {c c' : Canvas α} {id : ClaimId}

/-- The pointer is down and would drag a claim. -/
def Holds (c : Canvas α) (id : ClaimId) : Prop := c.press.isSome ∧ id ∈ c.selected

/-- From one state to the next, a claim that stays live is deselected although the pointer stays down. -/
def LetsGo (c c' : Canvas α) (id : ClaimId) : Prop :=
  c.Holds id ∧ c'.press.isSome ∧ id ∉ c'.selected ∧ c'.graph.contains (.claim id)

instance (c c' : Canvas α) (id : ClaimId) : Decidable (c.LetsGo c' id) :=
  inferInstanceAs (Decidable ((_ ∧ _) ∧ _ ∧ _ ∧ _))

/-- At some step of a run a claim is let go of. -/
def LetGo (c : Canvas α) (id : ClaimId) : List (CanvasOperation α) → Prop
  | [] => False
  | operation :: rest => c.LetsGo (c.perform operation) id ∨ (c.perform operation).LetGo id rest

instance decidableLetGo (c : Canvas α) (id : ClaimId) :
    (operations : List (CanvasOperation α)) → Decidable (c.LetGo id operations)
  | [] => inferInstanceAs (Decidable False)
  | operation :: rest =>
    have := decidableLetGo (c.perform operation) id rest
    inferInstanceAs (Decidable (_ ∨ _))

omit [Scalar α] in
theorem not_holds_of_idle (hidle : c.interaction = .idle) : ¬c.Holds id := by
  rintro ⟨hpress, -⟩
  unfold interaction at hidle
  cases hc : c.press with
  | none => simp [hc] at hpress
  | some press =>
      rw [hc] at hidle
      dsimp only at hidle
      split at hidle <;> cases hidle

end Canvas

/-- The graph is changed by way of the canvas only. -/
def CanvasOperation.LeavesGraph : CanvasOperation α → Prop
  | .editGraph _ => False
  | _ => True

namespace Canvas

variable {c : Canvas α} {id : ClaimId}

theorem rests_fits {c c' : Canvas α} (h : c' = c ∨ c.Rearranges c') (hrests : c.graph.Rests id) :
    c'.graph.Rests id := by
  rcases h with rfl | ⟨anchor, size, rfl⟩
  · exact hrests
  · exact hrests.updateAll fun _ => rfl

theorem rests_updateStyle (h : c.graph.Rests id) (edit : Style α → Style α) :
    (c.updateStyle edit).graph.Rests id := by
  obtain ⟨g, palette, rfl | rfl, h'⟩ := c.updateStyle_cases edit <;> rw [h']
  · exact h
  · exact h.forgetSizes

theorem rests_keyDown (h : c.graph.Rests id) (key : Key) (shift : Bool) :
    (c.keyDown key shift).2.graph.Rests id := by
  rcases c.keyDown_cases key shift with h' | h' | ⟨-, h'⟩ | ⟨dx, dy, h'⟩ <;> rw [h']
  · exact h
  · exact deleteSelection_induction (P := fun c => c.graph.Rests id) (fun c other hc => hc.delete (.claim other))
      (fun _ hc => hc) h
  · exact h
  · exact h.updateClaims c.selected fun p hp => hp

/-- A claim without an offset gets one by being dragged, and by nothing else. -/
theorem rests_or_holds_perform (h : c.graph.Rests id) {operation : CanvasOperation α}
    (hoperation : operation.LeavesGraph) :
    (c.perform operation).graph.Rests id ∨ (c.perform operation).Holds id := by
  cases operation with
  | editGraph edit => exact hoperation.elim
  | pointerMove point =>
      rcases c.pointerMove_cases point with ⟨-, cursor, h'⟩ | ⟨press, dragging, dx, dy, -, h'⟩ <;> rw [perform, h']
      · exact .inl h
      · by_cases hmem : id ∈ c.selected
        · exact .inr ⟨rfl, hmem⟩
        · left
          intro claim hclaim
          have hsame : (c.graph.updateClaims c.selected (·.dragBy dx dy)).claim? id = c.graph.claim? id :=
            Graph.claim?_updateClaims_of_not_mem hmem _
          exact h claim (hsame ▸ hclaim)
  | pointerUp point =>
      left
      rcases c.pointerUp_cases point with ⟨-, -, h'⟩ | ⟨-, -, h'⟩ | ⟨-, selected, -, h'⟩ <;> rw [perform, h']
      · exact h
      · exact h.updateClaims c.selected fun p _ => rfl
      · exact h.updateClaims c.selected fun p _ => rfl
  | addClaim text metadata => exact .inl (h.addClaim text metadata)
  | addRelation sources target kind metadata =>
      left
      rcases c.addRelation_cases sources target kind metadata with h' | ⟨id, g, hadd, h'⟩ <;> rw [h']
      · exact h
      · exact h.addRelation hadd
  | delete entity => exact .inl (h.delete entity)
  | updateStyle edit => exact .inl (rests_updateStyle h edit)
  | setStyle style => exact .inl (rests_updateStyle h _)
  | setFocus focused =>
      rcases c.setFocus_cases focused with h' | h' <;> rw [perform, h'] <;> exact .inl h
  | measureClaims => exact .inl (h.measureClaims _)
  | layout => exact .inl (h.measureClaims _)
  | applyLayout =>
      left
      rcases c.applyLayout_cases with h' | ⟨l, -, h'⟩ <;> rw [perform, h']
      · exact h.measureClaims _
      · exact (h.measureClaims _).moveClaims l.outline
  | fit padding => exact .inl (rests_fits (c.fit_cases padding) h)
  | fitVertically padding => exact .inl (rests_fits (c.fitVertically_cases padding) h)
  | pointerDown point extend =>
      rcases c.pointerDown_cases point extend with h' | ⟨other, -, -, h'⟩ <;> rw [perform, h'] <;> exact .inl h
  | keyDown key shift => exact .inl (rests_keyDown h key shift)
  | frame =>
      left
      rcases c.frame_cases with h' | h' <;> rw [perform, h']
      · exact h
      · exact h.measureClaims _
  | draw => exact .inl (h.measureClaims _)
  | _ => exact .inl h

/-- The release takes the offset from all that the pointer holds. -/
theorem rests_pointerUp (h : c.Holds id) (point : Point α) : (c.pointerUp point).graph.Rests id := by
  rcases c.pointerUp_cases point with ⟨-, hnone, -⟩ | ⟨-, -, h'⟩ | ⟨-, selected, -, h'⟩
  · exact absurd (hnone ▸ h.2) List.not_mem_nil
  · rw [h']
    exact Graph.rests_updateClaims h.2 fun _ => rfl
  · rw [h']
    exact Graph.rests_updateClaims h.2 fun _ => rfl

/-- Only the release takes the pointer up. -/
theorem pressed_perform (h : c.press.isSome) {operation : CanvasOperation α}
    (hoperation : ∀ point, operation ≠ .pointerUp point) : (c.perform operation).press.isSome := by
  rcases c.press_perform_cases operation with h' | ⟨point, extend, -, h'⟩ | ⟨point, press, dragging, -, -, h'⟩ |
    ⟨point, hup, -⟩
  · rw [h']
    exact h
  · rw [h', Option.isSome_some]
  · rw [h', Option.isSome_some]
  · exact absurd hup (hoperation point)

omit [Scalar α] in
/-- Deletions deselect nothing but what they delete. -/
theorem selected_or_dead_delete {id : ClaimId} (h : id ∈ c.selected ∨ ¬c.graph.contains (.claim id))
    (entity : Entity) : id ∈ (c.delete entity).2.selected ∨ ¬(c.delete entity).2.graph.contains (.claim id) := by
  have hclaim := Graph.claim?_delete c.graph entity id
  by_cases hgone : id ∈ (c.graph.delete entity).1.claims
  · rw [if_pos hgone] at hclaim
    right
    intro hlive
    obtain ⟨claim, hsome⟩ := Graph.contains_claim_iff.1 hlive
    cases hclaim.symm.trans hsome
  · rw [if_neg hgone] at hclaim
    have hkept : (!(c.graph.delete entity).1.claims.contains id) = true := by simpa using hgone
    refine h.imp (fun hmem => List.mem_filter.2 ⟨hmem, hkept⟩) fun hdead hlive => hdead ?_
    obtain ⟨claim, hsome⟩ := Graph.contains_claim_iff.1 hlive
    exact Graph.contains_claim_iff.2 ⟨claim, hclaim ▸ hsome⟩

/-- Only a press that starts a new selection and the tab key let go of a claim. -/
theorem letsGo_cases {operation : CanvasOperation α} (h : c.LetsGo (c.perform operation) id) :
    (∃ point, operation = .pointerDown point false) ∨ ∃ shift, operation = .keyDown .tab shift := by
  obtain ⟨⟨hpress, hmem⟩, hstill, hnot, hlive⟩ := h
  cases operation with
  | addRelation sources target kind metadata =>
      rcases c.addRelation_cases sources target kind metadata with h' | ⟨id, g, -, h'⟩ <;> rw [h'] at hnot <;>
        exact absurd hmem hnot
  | delete entity => exact absurd hlive ((selected_or_dead_delete (.inl hmem) entity).resolve_left hnot)
  | setFocus focused =>
      rcases c.setFocus_cases focused with h' | h' <;> rw [perform, h'] at hnot <;> exact absurd hmem hnot
  | applyLayout =>
      rcases c.applyLayout_cases with h' | ⟨l, -, h'⟩ <;> rw [perform, h'] at hnot <;> exact absurd hmem hnot
  | fit padding =>
      rcases c.fit_cases padding with h' | ⟨anchor, size, h'⟩ <;> rw [perform, h'] at hnot <;>
        exact absurd hmem hnot
  | fitVertically padding =>
      rcases c.fitVertically_cases padding with h' | ⟨anchor, size, h'⟩ <;> rw [perform, h'] at hnot <;>
        exact absurd hmem hnot
  | pointerDown point extend =>
      rcases c.pointerDown_cases point extend with h' | ⟨other, -, -, h'⟩ <;> rw [perform, h'] at hnot
      · exact absurd hmem hnot
      · cases extend with
        | false => exact .inl ⟨point, rfl⟩
        | true => exact absurd (List.mem_append_left _ hmem) hnot
  | pointerMove point =>
      rcases c.pointerMove_cases point with ⟨-, cursor, h'⟩ | ⟨press, dragging, dx, dy, -, h'⟩ <;>
        rw [perform, h'] at hnot <;> exact absurd hmem hnot
  | pointerUp point =>
      rcases c.pointerUp_cases point with ⟨-, -, h'⟩ | ⟨-, -, h'⟩ | ⟨-, selected, -, h'⟩ <;>
        rw [perform, h'] at hstill <;> cases hstill
  | keyDown key shift =>
      right
      rw [perform] at hnot hlive
      rcases c.keyDown_cases key shift with h' | h' | ⟨rfl, -⟩ | ⟨dx, dy, h'⟩
      · rw [h'] at hnot
        exact absurd hmem hnot
      · rw [h'] at hnot hlive
        have hdeleted := deleteSelection_induction
          (P := fun c => id ∈ c.selected ∨ ¬c.graph.contains (.claim id))
          (fun c other hc => selected_or_dead_delete hc (.claim other)) (fun _ hc => hc) (.inl hmem)
        exact absurd hlive (hdeleted.resolve_left hnot)
      · exact ⟨shift, rfl⟩
      · rw [h'] at hnot
        exact absurd hmem hnot
  | frame => rcases c.frame_cases with h' | h' <;> rw [perform, h'] at hnot <;> exact absurd hmem hnot
  | _ => exact absurd hmem hnot

/-- What one operation preserves: a claim without an offset, or held. -/
theorem rests_or_holds_step (h : c.graph.Rests id ∨ c.Holds id) {operation : CanvasOperation α}
    (hoperation : operation.LeavesGraph) (hkept : ¬c.LetsGo (c.perform operation) id) :
    (c.perform operation).graph.Rests id ∨ (c.perform operation).Holds id := by
  rcases h with hrests | hholds
  · exact rests_or_holds_perform hrests hoperation
  · by_cases hup : ∃ point, operation = .pointerUp point
    · obtain ⟨point, rfl⟩ := hup
      exact .inl (rests_pointerUp hholds point)
    · have hpress : (c.perform operation).press.isSome :=
        pressed_perform hholds.1 fun point heq => hup ⟨point, heq⟩
      by_cases hmem : id ∈ (c.perform operation).selected
      · exact .inr ⟨hpress, hmem⟩
      · -- it is deselected, but not let go of: it is not there any more
        left
        intro claim hclaim
        exact absurd ⟨hholds, hpress, hmem, Graph.contains_claim_iff.2 ⟨claim, hclaim⟩⟩ hkept

/-! ### A run -/

theorem rests_or_holds_after {operations : List (CanvasOperation α)}
    (hoperations : ∀ operation ∈ operations, operation.LeavesGraph) (h : c.graph.Rests id ∨ c.Holds id)
    (hkept : ¬c.LetGo id operations) :
    (c.after operations).graph.Rests id ∨ (c.after operations).Holds id := by
  induction operations generalizing c with
  | nil => exact h
  | cons operation rest ih =>
      obtain ⟨hfirst, hrest⟩ := List.forall_mem_cons.1 hoperations
      obtain ⟨hnow, hlater⟩ := not_or.1 hkept
      exact ih hrest (rests_or_holds_step h hfirst hnow) hlater

/-- In a run in which a claim is let go of, there is such a press or such a key while the pointer is down. -/
theorem exists_of_letGo {operations : List (CanvasOperation α)} (h : c.LetGo id operations) :
    ∃ before operation rest, operations = before ++ operation :: rest ∧ (c.after before).Holds id ∧
      ((∃ point, operation = .pointerDown point false) ∨ ∃ shift, operation = .keyDown .tab shift) := by
  induction operations generalizing c with
  | nil => exact h.elim
  | cons operation rest ih =>
      rcases h with hnow | hlater
      · exact ⟨[], operation, rest, rfl, hnow.1, letsGo_cases hnow⟩
      · obtain ⟨before, other, more, rfl, hholds, hother⟩ := ih hlater
        exact ⟨operation :: before, other, more, rfl, hholds, hother⟩

/-- From a state without offsets on, a live claim has none whenever the pointer is up, unless it was let go
of under a pressed pointer. It then stands at its anchor. -/
theorem no_offset_when_idle (hrests : ∀ id, c.graph.Rests id) {operations : List (CanvasOperation α)}
    (hoperations : ∀ operation ∈ operations, operation.LeavesGraph) {claim : Claim α}
    (hclaim : (c.after operations).graph.claim? id = some claim)
    (hkept : ¬c.LetGo id operations) (hidle : (c.after operations).interaction = .idle) :
    claim.placement.offset = ⟨0.0, 0.0⟩ ∧
      ((∀ a : α, a + 0.0 = a) → claim.placement.position = claim.placement.anchor) := by
  have hafter := rests_or_holds_after hoperations (.inl (hrests id)) hkept
  have hoffset := hafter.resolve_right (not_holds_of_idle hidle) claim hclaim
  refine ⟨hoffset, fun hzero => ?_⟩
  rw [Placement.position, Placement.x, Placement.y, hoffset, hzero, hzero]

/-- A claim that is dragged, also by a key, and dropped. -/
theorem no_offset_when_idle_after_drop :
    let operations : List (CanvasOperation Float32) :=
      [.addClaim "Streets are wet" .plain, .keyDown .tab false, .pointerDown ⟨0.0, 0.0⟩ false,
        .pointerMove ⟨5.0, 1.0⟩, .keyDown .arrowUp false, .pointerUp ⟨5.0, 1.0⟩]
    let c := (create (.blank 640 480 .estimate) ⟨640.0, 480.0⟩ (.ofTheme .classic 1.0)).after operations
    c.interaction = .idle ∧ ∃ claim, c.graph.claim? ⟨0⟩ = some claim ∧ claim.placement.offset = ⟨0.0, 0.0⟩ := by
  intro operations c
  have hidle : c.interaction = .idle := by decide +kernel
  obtain ⟨claim, hclaim⟩ := Option.isSome_iff_exists.1 (show (c.graph.claim? ⟨0⟩).isSome by decide +kernel)
  have hkept : ¬(create (.blank 640 480 .estimate) ⟨640.0, 480.0⟩ (.ofTheme .classic 1.0)).LetGo ⟨0⟩ operations := by
    decide +kernel
  have hrests : ∀ id, (create (.blank 640 480 .estimate) (⟨640.0, 480.0⟩ : Size Float32)
      (.ofTheme .classic 1.0)).graph.Rests id := by
    intro id claim hclaim
    cases hclaim
  refine ⟨hidle, claim, hclaim, (no_offset_when_idle hrests ?_ hclaim hkept hidle).1⟩
  simp [operations, CanvasOperation.LeavesGraph]

/-- The tab key lets go of a claim while the pointer is down, and the offset is left behind. -/
theorem exists_offset_left :
    let operations : List (CanvasOperation Float32) :=
      [.addClaim "a" .plain, .addClaim "b" .plain, .keyDown .tab false, .pointerDown ⟨0.0, 0.0⟩ false,
        .pointerMove ⟨1.0, 0.0⟩, .keyDown .tab false, .pointerUp ⟨1.0, 0.0⟩]
    let c := (create (.blank 0 0 .estimate) ⟨100.0, 100.0⟩ (.ofTheme .classic 1.0)).after operations
    c.interaction = .idle ∧ (c.graph.claim? ⟨0⟩).map (·.placement.offset) = some ⟨1.0, 0.0⟩ := by
  decide +kernel

end Canvas

end ArgumentDiagram
