import ArgumentDiagram.Proofs.Canvas.Gesture
import ArgumentDiagram.Proofs.Canvas.Selection
import ArgumentDiagram.Proofs.Number.Packing

/-!
A press, some moves and the release. The moves only replace the offset of what is selected, and remember whether
the pointer has ever been far from where it was pressed. The release makes the last offset part of the anchors if
it was, and drops it if it was not.

Main statement: `Canvas.drags_or_clicks`, for every canvas without offsets and every such gesture.
-/

namespace ArgumentDiagram

/-- The placement of a claim is changed once for each time it is listed. -/
theorem Graph.claim?_updateClaims {α : Type} (g : Graph α) (ids : List ClaimId) (f : Placement α → Placement α)
    (id : ClaimId) :
    (g.updateClaims ids f).claim? id = (g.claim? id).map (Claim.mapPlacement f^[ids.count id]) := by
  induction ids generalizing g with
  | nil => exact Option.map_id'.symm
  | cons first rest ih =>
      rw [updateClaims, List.foldl_cons, ← updateClaims, ih, claim?_updateClaim, Option.map_map]
      by_cases h : id = first
      · rw [if_pos h, h, List.count_cons_self]
        rfl
      · rw [if_neg h, List.count_cons_of_ne (Ne.symm h)]
        rfl

/-- What is done to a claim as soon as it is listed once. -/
theorem Graph.claim?_updateClaims_of_idem {α : Type} (g : Graph α) (ids : List ClaimId)
    {f : Placement α → Placement α} (hf : ∀ p, f (f p) = f p) (id : ClaimId) :
    (g.updateClaims ids f).claim? id =
      (g.claim? id).map (if id ∈ ids then Claim.mapPlacement f else fun claim => claim) := by
  rw [claim?_updateClaims]
  by_cases h : id ∈ ids
  · obtain ⟨n, hn⟩ := Nat.exists_eq_succ_of_ne_zero (List.count_pos_iff.2 h).ne'
    have hiterate : f^[n + 1] = f := funext fun p => Function.iterate_fixed (hf p) n
    rw [if_pos h, hn, hiterate]
  · rw [if_neg h, List.count_eq_zero_of_not_mem h]
    rfl

variable {α : Type} [Scalar α]

/-- The pointer is so far from where it was pressed that it drags. -/
def Canvas.drags (start point : Point α) : Bool := Canvas.isDrag (point.x - start.x) (point.y - start.y)

/-- A claim under a pressed pointer: the last move alone decides where it is. -/
def Placement.draggedTo (start : Point α) (moves : List (Point α)) (p : Placement α) : Placement α :=
  match moves.getLast? with
  | none => p
  | some point => p.dragBy (point.x - start.x) (point.y - start.y)

/-- Another offset takes the place of the one that the moves have left. -/
theorem Placement.dragBy_draggedTo (start : Point α) (moves : List (Point α)) (p : Placement α) (dx dy : α) :
    (p.draggedTo start moves).dragBy dx dy = p.dragBy dx dy := by
  unfold draggedTo
  split
  · rfl
  · rfl

theorem Placement.draggedTo_concat (start : Point α) (moves : List (Point α)) (point : Point α)
    (p : Placement α) :
    p.draggedTo start (moves ++ [point]) = p.dragBy (point.x - start.x) (point.y - start.y) := by
  rw [draggedTo, List.getLast?_concat]

namespace Canvas

variable {c c' : Canvas α} {start : Point α} {moves : List (Point α)}

/-- What a pressed pointer has made of a canvas by its moves. -/
structure Follows (c : Canvas α) (start : Point α) (moves : List (Point α)) (c' : Canvas α) : Prop where
  press_eq : c'.press = some ⟨start, moves.any (drags start)⟩
  selected_eq : c'.selected = c.selected
  events_eq : c'.events = c.events
  claim?_eq : ∀ id, c'.graph.claim? id = (c.graph.claim? id).map
    (if id ∈ c.selected then Claim.mapPlacement (Placement.draggedTo start moves) else fun claim => claim)
  sameArgument : c.graph.SameArgument c'.graph

namespace Follows

theorem refl (h : c.press = some ⟨start, false⟩) : c.Follows start [] c where
  press_eq := h
  selected_eq := rfl
  events_eq := rfl
  claim?_eq id := by
    split
    · exact Option.map_id'.symm
    · exact Option.map_id'.symm
  sameArgument := .refl _

/-- Dragged further, a selected claim has the new offset and not the one of the moves. -/
theorem claim?_dragBy (h : c.Follows start moves c') (dx dy : α) (id : ClaimId) :
    (c'.graph.updateClaims c'.selected (·.dragBy dx dy)).claim? id = (c.graph.claim? id).map
      (if id ∈ c.selected then Claim.mapPlacement (·.dragBy dx dy) else fun claim => claim) := by
  rw [Graph.claim?_updateClaims_of_idem (f := (·.dragBy dx dy)) _ _ (fun _ => rfl), h.claim?_eq, h.selected_eq,
    Option.map_map]
  congr 1
  by_cases hmem : id ∈ c.selected
  · rw [if_pos hmem, if_pos hmem]
    funext claim
    show claim.mapPlacement (fun p => (p.draggedTo start moves).dragBy dx dy) = _
    congr 1
    funext p
    exact p.dragBy_draggedTo ..
  · rw [if_neg hmem, if_neg hmem]
    rfl

theorem pointerMove (h : c.Follows start moves c') (point : Point α) :
    c.Follows start (moves ++ [point]) (c'.pointerMove point) := by
  have hmove : c'.pointerMove point = { c' with
      press := some ⟨start, moves.any (drags start) || drags start point⟩
      graph := c'.graph.updateClaims c'.selected (·.dragBy (point.x - start.x) (point.y - start.y)) }.update := by
    rw [Canvas.pointerMove, h.press_eq]
    rfl
  rw [hmove]
  refine ⟨?_, h.selected_eq, h.events_eq, fun id => ?_, h.sameArgument.trans (Graph.sameArgument_updateClaims ..)⟩
  · show some (Press.mk start (moves.any (drags start) || drags start point)) = _
    rw [List.any_append, List.any_cons, List.any_nil, Bool.or_false]
  · show (c'.graph.updateClaims c'.selected (·.dragBy (point.x - start.x) (point.y - start.y))).claim? id = _
    have hlast : Placement.draggedTo start (moves ++ [point]) =
        (·.dragBy (point.x - start.x) (point.y - start.y)) :=
      funext fun p => p.draggedTo_concat start moves point
    rw [h.claim?_dragBy, hlast]

theorem pointerMoves (h : c.Follows start moves c') (more : List (Point α)) :
    c.Follows start (moves ++ more) (c'.after (more.map .pointerMove)) := by
  induction more generalizing moves c' with
  | nil => rwa [List.append_nil]
  | cons point rest ih =>
      have hrest := ih (h.pointerMove point)
      rwa [List.append_assoc] at hrest

end Follows

/-! ### Press and release -/

theorem pointerDown_leaves (c : Canvas α) (start : Point α) (extend : Bool) :
    (c.pointerDown start extend).graph = c.graph ∧ (c.pointerDown start extend).events = c.events ∧
      (c.pointerDown start extend).press = some ⟨start, false⟩ := by
  rcases c.pointerDown_cases start extend with h | ⟨id, -, -, h⟩
  · rw [h]
    exact ⟨rfl, rfl, rfl⟩
  · rw [h]
    exact ⟨rfl, rfl, rfl⟩

/-- A press selects nothing twice. -/
theorem nodup_selected_pointerDown (h : c.selected.Nodup) (start : Point α) (extend : Bool) :
    (c.pointerDown start extend).selected.Nodup := by
  rcases c.pointerDown_cases start extend with hdown | ⟨id, -, hnew, hdown⟩
  · rw [hdown]
    exact h
  · rw [hdown]
    cases extend with
    | false => exact List.nodup_singleton id
    | true =>
        show (c.selected ++ [id]).Nodup
        rw [← List.concat_eq_append]
        exact h.concat hnew

theorem isNone_claimAt_iff {point : Point α} : (c.claimAt point).isNone = true ↔
    ∀ id claim, c.graph.claim? id = some claim → claim.rect.contains point = false := by
  rw [claimAt, Option.isNone_map, Option.isNone_iff_eq_none, List.find?_eq_none]
  constructor
  · intro h id claim hclaim
    exact Bool.eq_false_iff.2 (h claim (Table.mem_values_iff.2 ⟨id, hclaim⟩))
  · intro h claim hmem
    obtain ⟨id, hclaim⟩ := Table.mem_values_iff.1 hmem
    exact Bool.eq_false_iff.1 (h id claim hclaim)

/-- The release of a drag. Without a selection there is nothing to commit, and nobody is told. -/
theorem pointerUp_of_drag (h : c.press = some ⟨start, true⟩) (release : Point α) :
    (c.pointerUp release).press = none ∧ (c.pointerUp release).selected = c.selected ∧
      (c.pointerUp release).graph = c.graph.updateClaims c.selected Placement.commitOffset ∧
      (c.pointerUp release).events =
        if c.selected = [] then c.events else (c.events.fire dropEvent (.drop c.selected)).2 := by
  have hup : c.pointerUp release = if c.selected.isEmpty then { c with cursor := .normal, press := none } else
      ({ c with
        cursor := .normal
        press := none
        graph := c.graph.updateClaims c.selected Placement.commitOffset }.update.fire dropEvent
          (.drop c.selected)).2 := by
    rw [pointerUp, h]
    rfl
  cases hselected : c.selected with
  | nil =>
      rw [hselected] at hup
      rw [hup]
      exact ⟨rfl, rfl, rfl, rfl⟩
  | cons first rest =>
      rw [hselected] at hup
      rw [hup]
      exact ⟨rfl, rfl, rfl, rfl⟩

/-- The release of a click, which looks for a claim after the offsets are gone. -/
theorem pointerUp_of_click (h : c.press = some ⟨start, false⟩) (release : Point α) :
    let g := c.graph.updateClaims c.selected (·.dragBy 0.0 0.0)
    (c.pointerUp release).press = none ∧ (c.pointerUp release).graph = g ∧
      (c.pointerUp release).events = c.events ∧
      ((∃ id claim, g.claim? id = some claim ∧ claim.rect.contains release = true) →
        (c.pointerUp release).selected = c.selected) ∧
      ((∀ id claim, g.claim? id = some claim → claim.rect.contains release = false) →
        (c.pointerUp release).selected = []) := by
  intro g
  let c' : Canvas α := { c with cursor := .normal, press := none, graph := g }
  have hup : c.pointerUp release =
      { c' with selected := if (c'.claimAt release).isNone then [] else c.selected }.update := by
    rw [pointerUp, h]
    rfl
  rw [hup]
  refine ⟨rfl, rfl, rfl, ?_, fun hfree => ?_⟩
  · rintro ⟨id, claim, hclaim, hcontains⟩
    refine if_neg fun hnone => ?_
    rw [isNone_claimAt_iff.1 hnone id claim hclaim] at hcontains
    cases hcontains
  · exact if_pos (isNone_claimAt_iff.2 hfree)

end Canvas

open Single (Same)

/-- No offset, where zero has either sign. -/
def Placement.AtRest (p : Placement Float32) : Prop := Same p.offset.x 0.0 ∧ Same p.offset.y 0.0

theorem Rect.contains_congr {r s : Rect Float32} (hx : Same r.x s.x) (hy : Same r.y s.y)
    (hsize : r.size = s.size) (point : Point Float32) : r.contains point = s.contains point := by
  obtain ⟨hwidth, hheight⟩ := Size.mk.inj hsize
  have hright : Same r.right s.right := hx.add (.inl hwidth)
  have hbottom : Same r.bottom s.bottom := hy.add (.inl hheight)
  rw [contains, contains, hx.lt (.refl point.x), hy.lt (.refl point.y), (Same.refl point.x).lt hright,
    (Same.refl point.y).lt hbottom]

namespace Placement

variable {p : Placement Float32}

theorem atRest_of_offset (h : p.offset = ⟨0.0, 0.0⟩) : p.AtRest := by
  rw [AtRest, h]
  exact ⟨.refl _, .refl _⟩

/-- A claim without an offset covers the same points whichever zeros its offset has. -/
theorem AtRest.contains_dragBy (h : p.AtRest) (point : Point Float32) :
    (p.dragBy 0.0 0.0).rect.contains point = p.rect.contains point :=
  Rect.contains_congr (r := (p.dragBy 0.0 0.0).rect) (s := p.rect) ((Same.refl p.anchor.x).add h.1.symm)
    ((Same.refl p.anchor.y).add h.2.symm) rfl point

/-- To commit an offset again and again adds it once, and zero from then on. -/
theorem commitOffset_iterate (p : Placement Float32) (n : Nat) :
    ∃ anchor : Point Float32, commitOffset^[n + 1] p = { p with anchor := anchor, offset := ⟨0.0, 0.0⟩ } ∧
      Same anchor.x (p.anchor.x + p.offset.x) ∧ Same anchor.y (p.anchor.y + p.offset.y) ∧
      (n = 0 → anchor = p.position) := by
  induction n with
  | zero => exact ⟨p.position, rfl, .refl _, .refl _, fun _ => rfl⟩
  | succ n ih =>
      obtain ⟨anchor, hanchor, hx, hy, -⟩ := ih
      refine ⟨⟨anchor.x + 0.0, anchor.y + 0.0⟩, ?_, (Same.add_zero _).trans hx, (Same.add_zero _).trans hy, ?_⟩
      · rw [Function.iterate_succ_apply', hanchor]
        rfl
      · intro h
        cases h

end Placement

namespace Canvas

/-- A press, some moves and the release. -/
def gesture (start : Point α) (extend : Bool) (moves : List (Point α)) (release : Point α) :
    List (CanvasOperation α) :=
  .pointerDown start extend :: (moves.map .pointerMove ++ [.pointerUp release])

/-- More than the threshold away, left or right or up or down. -/
def Far (start point : Point Float32) : Prop :=
  2.0 < (point.x - start.x).abs ∨ 2.0 < (point.y - start.y).abs

theorem drags_iff {start point : Point Float32} : drags start point = true ↔ Far start point := by
  show (decide ((2.0 : Float32) < (point.x - start.x).abs) || decide ((2.0 : Float32) < (point.y - start.y).abs)) =
    true ↔ _
  rw [Bool.or_eq_true, decide_eq_true_iff, decide_eq_true_iff]
  rfl

/-- What the moves leave, for the release. -/
theorem exists_follows (c : Canvas α) (start : Point α) (extend : Bool) (moves : List (Point α))
    (release : Point α) : ∃ c', (c.pointerDown start extend).Follows start moves c' ∧
      c.after (gesture start extend moves release) = c'.pointerUp release := by
  obtain ⟨-, -, hpress⟩ := c.pointerDown_leaves start extend
  refine ⟨_, (Follows.refl hpress).pointerMoves moves, ?_⟩
  rw [after, gesture, List.foldl_cons, List.foldl_append]
  rfl

/-- A gesture that gets far: the offset of the last move is committed once for each time a claim is selected. -/
theorem after_drag (c : Canvas α) (extend : Bool) (release : Point α) (hdrag : moves.any (drags start) = true) :
    let selection := (c.pointerDown start extend).selected
    let c' := c.after (gesture start extend moves release)
    c'.press = none ∧ c'.selected = selection ∧
      c'.events = (if selection = [] then c.events else (c.events.fire dropEvent (.drop selection)).2) ∧
      c.graph.SameArgument c'.graph ∧
      ∀ id, c'.graph.claim? id = (c.graph.claim? id).map (if id ∈ selection then Claim.mapPlacement fun p =>
        Placement.commitOffset^[selection.count id] (p.draggedTo start moves) else fun claim => claim) := by
  intro selection c'
  obtain ⟨hgraph, hevents, -⟩ := c.pointerDown_leaves start extend
  obtain ⟨held, hheld, hafter⟩ := c.exists_follows start extend moves release
  have hselected : held.selected = selection := hheld.selected_eq
  have hpress := hheld.press_eq
  rw [hdrag] at hpress
  obtain ⟨hup, hselectedUp, hgraphUp, heventsUp⟩ := pointerUp_of_drag hpress release
  have hc' : c' = held.pointerUp release := hafter
  rw [hc']
  refine ⟨hup, hselectedUp.trans hselected, ?_, ?_, fun id => ?_⟩
  · rw [heventsUp, hselected, hheld.events_eq, hevents]
  · rw [hgraphUp, ← hgraph]
    exact hheld.sameArgument.trans (Graph.sameArgument_updateClaims ..)
  · rw [hgraphUp, Graph.claim?_updateClaims, hheld.claim?_eq, hgraph, hselected, Option.map_map]
    congr 1
    by_cases hmem : id ∈ selection
    · rw [if_pos hmem, if_pos hmem]
      rfl
    · rw [if_neg hmem, if_neg hmem, List.count_eq_zero_of_not_mem hmem]
      rfl

/-- A gesture that stays near: what is selected loses its offset, and whether there is a claim where the pointer
goes up is seen after that. -/
theorem after_click (c : Canvas α) (extend : Bool) (release : Point α)
    (hclick : moves.any (drags start) = false) :
    let selection := (c.pointerDown start extend).selected
    let c' := c.after (gesture start extend moves release)
    c'.press = none ∧ c'.events = c.events ∧ c.graph.SameArgument c'.graph ∧
      (∀ id, c'.graph.claim? id = (c.graph.claim? id).map
        (if id ∈ selection then Claim.mapPlacement (·.dragBy 0.0 0.0) else fun claim => claim)) ∧
      ((∃ id claim, c'.graph.claim? id = some claim ∧ claim.rect.contains release = true) →
        c'.selected = selection) ∧
      ((∀ id claim, c'.graph.claim? id = some claim → claim.rect.contains release = false) →
        c'.selected = []) := by
  intro selection c'
  obtain ⟨hgraph, hevents, -⟩ := c.pointerDown_leaves start extend
  obtain ⟨held, hheld, hafter⟩ := c.exists_follows start extend moves release
  have hselected : held.selected = selection := hheld.selected_eq
  have hpress := hheld.press_eq
  rw [hclick] at hpress
  obtain ⟨hup, hgraphUp, heventsUp, hon, hoff⟩ := pointerUp_of_click hpress release
  have hc' : c' = held.pointerUp release := hafter
  rw [hc', hgraphUp]
  refine ⟨hup, heventsUp.trans (hheld.events_eq.trans hevents), ?_, fun id => ?_,
    fun h => (hon h).trans hselected, hoff⟩
  · rw [← hgraph]
    exact hheld.sameArgument.trans (Graph.sameArgument_updateClaims ..)
  · rw [hheld.claim?_dragBy, hgraph]

omit [Scalar α] in
theorem interaction_of_press {c : Canvas α} (h : c.press = none) : c.interaction = .idle := by
  rw [interaction, h]

/-- A release far from the press adds the way to the last move to the anchor of what is selected. -/
theorem exists_anchor_of_drag (c : Canvas Float32) {start : Point Float32} (extend : Bool)
    {moves : List (Point Float32)} {last : Point Float32} (hlast : moves.getLast? = some last) {id : ClaimId}
    (hmem : id ∈ (c.pointerDown start extend).selected) (p : Placement Float32) :
    ∃ anchor : Point Float32,
      Placement.commitOffset^[(c.pointerDown start extend).selected.count id] (p.draggedTo start moves) =
        { p with anchor := anchor, offset := ⟨0.0, 0.0⟩ } ∧
      Same anchor.x (p.anchor.x + (last.x - start.x)) ∧ Same anchor.y (p.anchor.y + (last.y - start.y)) ∧
      (c.selected.Nodup → anchor = ⟨p.anchor.x + (last.x - start.x), p.anchor.y + (last.y - start.y)⟩) := by
  obtain ⟨n, hn⟩ := Nat.exists_eq_succ_of_ne_zero (List.count_pos_iff.2 hmem).ne'
  have hdragged : p.draggedTo start moves = p.dragBy (last.x - start.x) (last.y - start.y) := by
    rw [Placement.draggedTo, hlast]
  obtain ⟨anchor, hanchor, hx, hy, honce⟩ :=
    (p.dragBy (last.x - start.x) (last.y - start.y)).commitOffset_iterate n
  refine ⟨anchor, ?_, hx, hy, fun hnodup => honce ?_⟩
  · rw [hn, hdragged]
    exact hanchor
  · have hcount := List.count_eq_one_of_mem (nodup_selected_pointerDown hnodup start extend) hmem
    exact Nat.succ.inj (hn.symm.trans hcount)

/-- Where no claim has an offset, dropping offsets leaves each claim over the same points. -/
theorem exists_of_dropped {g g' : Graph Float32} {selection : List ClaimId}
    (hclaims : ∀ id, g'.claim? id = (g.claim? id).map
      (if id ∈ selection then Claim.mapPlacement (·.dragBy 0.0 0.0) else fun claim => claim))
    (hrest : ∀ id claim, g.claim? id = some claim → claim.placement.AtRest) {id : ClaimId}
    {claim' : Claim Float32} (hclaim' : g'.claim? id = some claim') :
    ∃ claim, g.claim? id = some claim ∧ claim'.placement.AtRest ∧
      ∀ point, claim'.rect.contains point = claim.rect.contains point := by
  rw [hclaims, Option.map_eq_some_iff] at hclaim'
  obtain ⟨claim, hclaim, rfl⟩ := hclaim'
  refine ⟨claim, hclaim, ?_⟩
  by_cases hmem : id ∈ selection
  · rw [if_pos hmem]
    exact ⟨Placement.atRest_of_offset rfl, (hrest id claim hclaim).contains_dragBy⟩
  · rw [if_neg hmem]
    exact ⟨hrest id claim hclaim, fun _ => rfl⟩

/-- **Every gesture is a drag or a click.** From a canvas without offsets, a gesture of which some move gets far
from the press adds the way to its last move to the anchor of each selected claim, and one drop is told; a gesture
that stays near leaves every anchor, tells nothing, and deselects everything if it ends on no claim. No offset is
left. An anchor is the sum itself, unless the claim is selected more than once: zero is then added to the sum. -/
theorem drags_or_clicks (c : Canvas Float32)
    (hrest : ∀ id claim, c.graph.claim? id = some claim → claim.placement.AtRest)
    (start : Point Float32) (extend : Bool) (moves : List (Point Float32)) (release : Point Float32) :
    let selection := (c.pointerDown start extend).selected
    let c' := c.after (gesture start extend moves release)
    ((∃ point ∈ moves, Far start point) →
      c'.selected = selection ∧
      c'.events = (if selection = [] then c.events else (c.events.fire dropEvent (.drop selection)).2) ∧
      ∃ last, moves.getLast? = some last ∧ ∀ id claim, c.graph.claim? id = some claim →
        (id ∉ selection → c'.graph.claim? id = some claim) ∧
        (id ∈ selection → ∃ anchor : Point Float32,
          c'.graph.claim? id =
            some (claim.mapPlacement fun p => { p with anchor := anchor, offset := ⟨0.0, 0.0⟩ }) ∧
          Same anchor.x (claim.placement.anchor.x + (last.x - start.x)) ∧
          Same anchor.y (claim.placement.anchor.y + (last.y - start.y)) ∧
          (c.selected.Nodup → anchor = ⟨claim.placement.anchor.x + (last.x - start.x),
            claim.placement.anchor.y + (last.y - start.y)⟩))) ∧
    ((∀ point ∈ moves, ¬Far start point) →
      c'.events = c.events ∧
      ((∃ id claim, c.graph.claim? id = some claim ∧ claim.rect.contains release = true) →
        c'.selected = selection) ∧
      ((∀ id claim, c.graph.claim? id = some claim → claim.rect.contains release = false) →
        c'.selected = []) ∧
      ∀ id, c'.graph.claim? id = (c.graph.claim? id).map
        (if id ∈ selection then Claim.mapPlacement (·.dragBy 0.0 0.0) else fun claim => claim)) ∧
    c.graph.SameArgument c'.graph ∧ c'.interaction = .idle ∧
      ∀ id claim, c'.graph.claim? id = some claim → claim.placement.AtRest := by
  intro selection c'
  by_cases hfar : ∃ point ∈ moves, Far start point
  · have hdrag : moves.any (drags start) = true := by
      obtain ⟨point, hmem, hpoint⟩ := hfar
      exact List.any_eq_true.2 ⟨point, hmem, drags_iff.2 hpoint⟩
    obtain ⟨hpress, hselected, hevents, hsame, hclaims⟩ := c.after_drag extend release hdrag
    obtain ⟨last, hlast⟩ : ∃ last, moves.getLast? = some last := by
      obtain ⟨point, hmem, -⟩ := hfar
      exact ⟨_, List.getLast?_eq_some_getLast (List.ne_nil_of_mem hmem)⟩
    refine ⟨fun _ => ⟨hselected, hevents, last, hlast, fun id claim hclaim => ⟨fun hmem => ?_, fun hmem => ?_⟩⟩,
      fun hnear => ?_, hsame, interaction_of_press hpress, fun id claim hclaim => ?_⟩
    · rw [hclaims, if_neg hmem, hclaim, Option.map_some]
    · obtain ⟨anchor, hanchor, hsum⟩ := c.exists_anchor_of_drag extend hlast hmem claim.placement
      refine ⟨anchor, ?_, hsum⟩
      rw [hclaims, if_pos hmem, hclaim, Option.map_some]
      exact congrArg some (congrArg (fun p => { claim with placement := p }) hanchor)
    · obtain ⟨point, hmem, hpoint⟩ := hfar
      exact absurd hpoint (hnear point hmem)
    · rw [hclaims, Option.map_eq_some_iff] at hclaim
      obtain ⟨before, hbefore, rfl⟩ := hclaim
      by_cases hmem : id ∈ selection
      · obtain ⟨anchor, hanchor, -⟩ := c.exists_anchor_of_drag extend hlast hmem before.placement
        rw [if_pos hmem]
        exact Placement.atRest_of_offset (congrArg Placement.offset hanchor)
      · rw [if_neg hmem]
        exact hrest id before hbefore
  · have hclick : moves.any (drags start) = false := by
      refine List.any_eq_false.2 fun point hmem hpoint => hfar ⟨point, hmem, drags_iff.1 hpoint⟩
    obtain ⟨hpress, hevents, hsame, hclaims, hon, hoff⟩ := c.after_click extend release hclick
    refine ⟨fun h => absurd h hfar, fun _ => ⟨hevents, ?_, fun hfree => hoff ?_, hclaims⟩, hsame,
      interaction_of_press hpress, fun id claim' hclaim' => ?_⟩
    · rintro ⟨id, claim, hclaim, hcontains⟩
      obtain ⟨claim', hclaim'⟩ : ∃ claim', c'.graph.claim? id = some claim' := by
        rw [hclaims, hclaim]
        exact ⟨_, rfl⟩
      obtain ⟨before, hbefore, -, hcovers⟩ := exists_of_dropped hclaims hrest hclaim'
      obtain rfl := Option.some.inj (hclaim.symm.trans hbefore)
      exact hon ⟨id, claim', hclaim', (hcovers release).trans hcontains⟩
    · intro id claim' hclaim'
      obtain ⟨claim, hclaim, -, hcovers⟩ := exists_of_dropped hclaims hrest hclaim'
      exact (hcovers release).trans (hfree id claim hclaim)
    · obtain ⟨-, -, hatRest, -⟩ := exists_of_dropped hclaims hrest hclaim'
      exact hatRest

/-- A selected claim is dragged away and back to where it was: it is still dropped. -/
theorem drags_or_clicks_of_return :
    let c := (create (.blank 640 480 .estimate) (⟨640.0, 480.0⟩ : Size Float32) (.ofTheme .classic 1.0)).after
      [.addClaim "Streets are wet" .plain, .keyDown .tab false]
    (∀ id claim, c.graph.claim? id = some claim → claim.placement.AtRest) ∧
      (∃ point ∈ ([⟨5.0, 1.0⟩, ⟨0.0, 0.0⟩] : List (Point Float32)), Far ⟨0.0, 0.0⟩ point) ∧
      (c.after (gesture ⟨0.0, 0.0⟩ false [⟨5.0, 1.0⟩, ⟨0.0, 0.0⟩] ⟨0.0, 0.0⟩)).events =
        (c.events.fire dropEvent (.drop [⟨0⟩])).2 := by
  intro c
  have hrest : ∀ id claim, c.graph.claim? id = some claim → claim.placement.AtRest := by
    intro id claim hclaim
    have hempty : (Graph.empty : Graph Float32).Rests id := by
      intro claim hclaim
      cases hclaim
    exact Placement.atRest_of_offset (hempty.addClaim "Streets are wet" .plain claim hclaim)
  have hfar : ∃ point ∈ ([⟨5.0, 1.0⟩, ⟨0.0, 0.0⟩] : List (Point Float32)), Far ⟨0.0, 0.0⟩ point := by
    refine ⟨⟨5.0, 1.0⟩, List.mem_cons_self, ?_⟩
    rw [← drags_iff]
    decide +kernel
  have hselection : (c.pointerDown ⟨0.0, 0.0⟩ false).selected = [⟨0⟩] := by decide +kernel
  have hevents := ((drags_or_clicks c hrest ⟨0.0, 0.0⟩ false [⟨5.0, 1.0⟩, ⟨0.0, 0.0⟩] ⟨0.0, 0.0⟩).1 hfar).2.1
  rw [hselection] at hevents
  exact ⟨hrest, hfar, hevents⟩

end Canvas

end ArgumentDiagram
