import ArgumentDiagram.Canvas.Keyboard
import ArgumentDiagram.Canvas.Pointer

/-!
Runs of operations on canvases. What every operation of a kind preserves, a run of such operations preserves.
For the operations that decide between several outcomes, all that they can do is said here once; a key that
deletes is a run of deletions.
-/

namespace ArgumentDiagram

/-- What can be done to a canvas. -/
inductive CanvasOperation (α : Type) where
  | addClaim (text : String) (metadata : Metadata)
  | addRelation (sources : List ClaimId) (target : Entity) (kind : Option RelationKind)
      (metadata : Metadata)
  | delete (entity : Entity)
  | editGraph (edit : Graph α → Graph α)
  | updateStyle (edit : Style α → Style α)
  | setStyle (style : Style α)
  | withSettings (settings : LayoutSettings α)
  | resize (size : Size α)
  | setFocus (focused : Bool)
  | measureClaims
  | layout
  | applyLayout
  | fit (padding : α)
  | fitVertically (padding : α)
  | pointerDown (point : Point α) (extend : Bool)
  | pointerMove (point : Point α)
  | pointerUp (point : Point α)
  | keyDown (key : Key) (shift : Bool)
  | on (name : String)
  | off (name : String) (id : ListenerId)
  | fire (name : String) (event : CanvasEvent)
  | update
  | frame
  | draw

namespace Canvas

variable {α : Type} {c : Canvas α}

theorem setFocus_cases (c : Canvas α) (focused : Bool) :
    c.setFocus focused = c ∨ c.setFocus focused = { c with focused := focused }.update := by
  unfold setFocus
  split
  · exact .inl rfl
  · exact .inr rfl

theorem selectNext_cases (c : Canvas α) (backwards : Bool) :
    ∃ next : Option ClaimId, (∀ id, next = some id → id ∈ c.graph.claimIds) ∧
      c.selectNext backwards = { c with selected := next.toList }.update := by
  refine ⟨_, fun id hid => ?_, rfl⟩
  obtain ⟨i, -, hget⟩ := Option.bind_eq_some_iff.1 hid
  exact List.mem_of_getElem? hget

variable [Scalar α]

/-- The canvas that an operation leaves. What is refused adds nothing. -/
def perform (c : Canvas α) : CanvasOperation α → Canvas α
  | .addClaim text metadata => (c.addClaim text metadata).2
  | .addRelation sources target kind metadata =>
    match c.addRelation sources target kind metadata with
    | .ok (_, c) => c
    | .error _ => c
  | .delete entity => (c.delete entity).2
  | .editGraph edit => c.editGraph edit
  | .updateStyle edit => c.updateStyle edit
  | .setStyle style => c.setStyle style
  | .withSettings settings => c.withSettings settings
  | .resize size => c.resize size
  | .setFocus focused => c.setFocus focused
  | .measureClaims => c.measureClaims.2
  | .layout => c.layout.2
  | .applyLayout => c.applyLayout.2
  | .fit padding => c.fit padding
  | .fitVertically padding => c.fitVertically padding
  | .pointerDown point extend => c.pointerDown point extend
  | .pointerMove point => c.pointerMove point
  | .pointerUp point => c.pointerUp point
  | .keyDown key shift => (c.keyDown key shift).2
  | .on name => (c.on name).2
  | .off name id => (c.off name id).2
  | .fire name event => (c.fire name event).2
  | .update => c.update
  | .frame => c.frame.2
  | .draw => c.draw

/-- The canvas after some operations, one after the other. -/
def after (c : Canvas α) (operations : List (CanvasOperation α)) : Canvas α :=
  operations.foldl perform c

/-- What each operation of a kind preserves, a run of such operations preserves. -/
theorem after_induction {P : Canvas α → Prop} {kind : CanvasOperation α → Prop}
    (hstep : ∀ c operation, kind operation → P c → P (c.perform operation))
    {operations : List (CanvasOperation α)} (hkind : ∀ operation ∈ operations, kind operation) (h : P c) :
    P (c.after operations) := by
  induction operations generalizing c with
  | nil => exact h
  | cons operation rest ih =>
      obtain ⟨hfirst, hrest⟩ := List.forall_mem_cons.1 hkind
      exact ih hrest (hstep c operation hfirst h)

/-- Deleting the selection is a run of deletions. -/
theorem deleteSelection_eq (c : Canvas α) :
    c.deleteSelection = (c.after (c.selected.map fun id => .delete (.claim id))).update := by
  rw [deleteSelection, after, List.foldl_map]
  rfl

/-- What deletions of claims preserve, deleting the selection preserves. -/
theorem deleteSelection_induction {P : Canvas α → Prop}
    (hdelete : ∀ c id, P c → P (c.perform (.delete (.claim id)))) (hupdate : ∀ c, P c → P c.update) (h : P c) :
    P c.deleteSelection := by
  rw [deleteSelection_eq]
  have hstep : ∀ c operation, (∃ id, operation = .delete (.claim id)) → P c → P (c.perform operation) := by
    rintro c _ ⟨id, rfl⟩ hc
    exact hdelete c id hc
  have hdeletions : ∀ operation ∈ c.selected.map fun id => (.delete (.claim id) : CanvasOperation α),
      ∃ id, operation = .delete (.claim id) := by
    intro operation hmem
    obtain ⟨id, -, rfl⟩ := List.mem_map.1 hmem
    exact ⟨id, rfl⟩
  exact hupdate _ (after_induction hstep hdeletions h)

/-! ### All that an operation can do -/

theorem addRelation_cases (c : Canvas α) (sources : List ClaimId) (target : Entity)
    (kind : Option RelationKind) (metadata : Metadata) :
    c.perform (.addRelation sources target kind metadata) = c ∨
      ∃ id g, c.graph.addRelation sources target kind metadata = .ok (some id, g) ∧
        c.perform (.addRelation sources target kind metadata) = { c with graph := g }.update := by
  have hperform : c.perform (.addRelation sources target kind metadata) =
      match c.addRelation sources target kind metadata with
      | .ok (_, c) => c
      | .error _ => c := rfl
  rw [hperform, addRelation]
  cases c.graph.addRelation sources target kind metadata with
  | error e => exact .inl rfl
  | ok added =>
      obtain ⟨_ | id, g⟩ := added
      · exact .inl rfl
      · exact .inr ⟨id, g, rfl, rfl⟩

theorem updateStyle_cases (c : Canvas α) (edit : Style α → Style α) :
    ∃ g palette, (g = c.graph ∨ g = c.graph.forgetSizes.2) ∧
      c.updateStyle edit = { c with style := edit c.style, graph := g, palette := palette }.update := by
  refine ⟨_, _, ?_, rfl⟩
  split
  · exact .inl rfl
  · exact .inr rfl

theorem applyLayout_cases (c : Canvas α) :
    c.applyLayout.2 = c.measureClaims.2 ∨
      ∃ l, Layout.build c.measureClaims.2.graph c.settings = .ok l ∧
        c.applyLayout.2 = { c.measureClaims.2 with
          graph := l.apply c.measureClaims.2.graph
          outline := some l.outline }.update := by
  have hlayout : c.layout = (Layout.build c.measureClaims.2.graph c.settings, c.measureClaims.2) := rfl
  rw [applyLayout, hlayout]
  cases Layout.build c.measureClaims.2.graph c.settings with
  | error e => exact .inl rfl
  | ok l => exact .inr ⟨l, rfl, rfl⟩

/-- All claims get a new anchor, and the container a new size. -/
def Rearranges (c c' : Canvas α) : Prop :=
  ∃ (anchor : Claim α → Point α) (size : Size α), c' = { c with
    graph := c.graph.updateAll fun claim => claim.placement.moveTo (anchor claim) }.resize size

theorem fit_cases (c : Canvas α) (padding : α) : c.fit padding = c ∨ c.Rearranges (c.fit padding) := by
  unfold fit
  cases c.graph.bounds with
  | none => exact .inl rfl
  | some bounds => exact .inr ⟨_, _, rfl⟩

theorem fitVertically_cases (c : Canvas α) (padding : α) :
    c.fitVertically padding = c ∨ c.Rearranges (c.fitVertically padding) := by
  unfold fitVertically
  cases c.graph.bounds with
  | none => exact .inl rfl
  | some bounds => exact .inr ⟨_, _, rfl⟩

theorem pointerDown_cases (c : Canvas α) (point : Point α) (extend : Bool) :
    c.pointerDown point extend = { c with press := some ⟨point, false⟩ } ∨
      ∃ id, c.claimAt point = some id ∧ id ∉ c.selected ∧
        c.pointerDown point extend = { c with
          press := some ⟨point, false⟩
          selected := if extend then c.selected ++ [id] else [id] }.update := by
  have hclaim : ({ c with press := some ⟨point, false⟩ } : Canvas α).claimAt point = c.claimAt point := rfl
  unfold pointerDown
  dsimp only
  rw [hclaim]
  cases c.claimAt point with
  | none => exact .inl rfl
  | some id =>
      by_cases hmem : id ∈ c.selected
      · simp [hmem]
      · exact .inr ⟨id, rfl, hmem, by simp [hmem]⟩

theorem pointerMove_cases (c : Canvas α) (point : Point α) :
    (c.press = none ∧ ∃ cursor, c.pointerMove point = { c with cursor := cursor }) ∨
      ∃ press dragging dx dy, c.press = some press ∧ c.pointerMove point = { c with
        press := some { press with dragging := dragging }
        graph := c.graph.updateClaims c.selected (·.dragBy dx dy) }.update := by
  unfold pointerMove
  cases c.press with
  | none => exact .inl ⟨rfl, _, rfl⟩
  | some press => exact .inr ⟨press, _, _, _, rfl, rfl⟩

theorem pointerUp_cases (c : Canvas α) (point : Point α) :
    (c.interaction = .dragging ∧ c.selected = [] ∧
      c.pointerUp point = { c with cursor := .normal, press := none }) ∨
    (c.interaction = .dragging ∧ c.selected ≠ [] ∧
      c.pointerUp point = ({ c with
        cursor := .normal
        press := none
        graph := c.graph.updateClaims c.selected Placement.commitOffset }.update.fire dropEvent
          (.drop c.selected)).2) ∨
    (c.interaction ≠ .dragging ∧ ∃ selected, (selected = c.selected ∨ selected = []) ∧
      c.pointerUp point = { c with
        cursor := .normal
        press := none
        graph := c.graph.updateClaims c.selected (·.dragBy 0.0 0.0)
        selected := selected }.update) := by
  have hdragging : c.press.any (·.dragging) = true ↔ c.interaction = .dragging := by
    unfold interaction
    cases c.press with
    | none => simp
    | some press => cases hdragging : press.dragging <;> simp [hdragging]
  unfold pointerUp
  dsimp only
  by_cases h : c.interaction = .dragging
  · rw [if_pos (hdragging.2 h)]
    cases hselected : c.selected with
    | nil => exact .inl ⟨h, rfl, rfl⟩
    | cons first rest => exact .inr (.inl ⟨h, by simp, rfl⟩)
  · rw [if_neg (mt hdragging.1 h)]
    refine .inr (.inr ⟨h, _, ?_, rfl⟩)
    split
    · exact .inr rfl
    · exact .inl rfl

theorem keyDown_cases (c : Canvas α) (key : Key) (shift : Bool) :
    (c.keyDown key shift).2 = c ∨ (c.keyDown key shift).2 = c.deleteSelection ∨
      (key = .tab ∧ (c.keyDown key shift).2 = c.selectNext shift) ∨
      ∃ dx dy, (c.keyDown key shift).2 = c.nudge dx dy := by
  cases key with
  | delete => exact .inr (.inl rfl)
  | backspace => exact .inr (.inl rfl)
  | tab =>
      have htab : c.keyDown .tab shift =
          if c.graph.claimIds.isEmpty then (false, c) else (true, c.selectNext shift) := rfl
      rw [htab]
      split
      · exact .inl rfl
      · exact .inr (.inr (.inl ⟨rfl, rfl⟩))
  | arrowUp => exact .inr (.inr (.inr ⟨_, _, rfl⟩))
  | arrowDown => exact .inr (.inr (.inr ⟨_, _, rfl⟩))
  | arrowLeft => exact .inr (.inr (.inr ⟨_, _, rfl⟩))
  | arrowRight => exact .inr (.inr (.inr ⟨_, _, rfl⟩))
  | other => exact .inl rfl

theorem frame_cases (c : Canvas α) : c.frame.2 = c ∨ c.frame.2 = c.draw := by
  unfold frame
  split
  · exact .inr rfl
  · exact .inl rfl

/-- The pointer goes down, moves and goes up, and nothing else touches it. -/
theorem press_perform_cases (c : Canvas α) (operation : CanvasOperation α) :
    (c.perform operation).press = c.press ∨
      (∃ point extend, operation = .pointerDown point extend ∧
        (c.perform operation).press = some ⟨point, false⟩) ∨
      (∃ point press dragging, operation = .pointerMove point ∧ c.press = some press ∧
        (c.perform operation).press = some { press with dragging := dragging }) ∨
      ∃ point, operation = .pointerUp point ∧ (c.perform operation).press = none := by
  cases operation with
  | addRelation sources target kind metadata =>
      rcases c.addRelation_cases sources target kind metadata with h | ⟨id, g, -, h⟩ <;> rw [h] <;> exact .inl rfl
  | setFocus focused => rcases c.setFocus_cases focused with h | h <;> rw [perform, h] <;> exact .inl rfl
  | applyLayout => rcases c.applyLayout_cases with h | ⟨l, -, h⟩ <;> rw [perform, h] <;> exact .inl rfl
  | fit padding =>
      rcases c.fit_cases padding with h | ⟨anchor, size, h⟩ <;> rw [perform, h] <;> exact .inl rfl
  | fitVertically padding =>
      rcases c.fitVertically_cases padding with h | ⟨anchor, size, h⟩ <;> rw [perform, h] <;> exact .inl rfl
  | pointerDown point extend =>
      refine .inr (.inl ⟨point, extend, rfl, ?_⟩)
      rcases c.pointerDown_cases point extend with h | ⟨other, -, -, h⟩
      · rw [perform, h]
      · rw [perform, h]
        rfl
  | pointerMove point =>
      rcases c.pointerMove_cases point with ⟨-, cursor, h⟩ | ⟨press, dragging, dx, dy, hpress, h⟩
      · rw [perform, h]
        exact .inl rfl
      · exact .inr (.inr (.inl ⟨point, press, dragging, rfl, hpress, by rw [perform, h]; rfl⟩))
  | pointerUp point =>
      refine .inr (.inr (.inr ⟨point, rfl, ?_⟩))
      rcases c.pointerUp_cases point with ⟨-, -, h⟩ | ⟨-, -, h⟩ | ⟨-, selected, -, h⟩ <;> rw [perform, h] <;> rfl
  | keyDown key shift =>
      left
      rw [perform]
      rcases c.keyDown_cases key shift with h | h | ⟨-, h⟩ | ⟨dx, dy, h⟩ <;> rw [h]
      · exact deleteSelection_induction (P := fun c' => c'.press = c.press) (fun _ _ h => h) (fun _ h => h) rfl
      · rfl
      · rfl
  | frame => rcases c.frame_cases with h | h <;> rw [perform, h] <;> exact .inl rfl
  | _ => exact .inl rfl

end Canvas

end ArgumentDiagram
