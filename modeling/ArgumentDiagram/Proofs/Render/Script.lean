import ArgumentDiagram.Proofs.Geometry.Hull
import ArgumentDiagram.Proofs.Canvas.Fitting
import ArgumentDiagram.Proofs.Canvas.Repaint
import ArgumentDiagram.Proofs.Render.Picture

/-!
Pictures of scripts. A picture is made of the loaded graph and its layout alone, and in exact arithmetic fitting
moves all boxes of the layout by the same way.
-/

namespace ArgumentDiagram

section

variable {α : Type} [Scalar α]

namespace Canvas

/-- A graph as a layout has it, fitted into the padding. -/
def arranged (o : RenderOptions α) (g : Graph α) (l : Layout α) : Canvas α :=
  (o.canvas.showing l (o.measured g)).fit o.config.render.padding

/-- The picture of a graph with a layout. -/
def picture (o : RenderOptions α) (g : Graph α) (l : Layout α) : Canvas α := (arranged o g l).draw

/-- A script has a picture if it loads and what it says has a layout, and else the error of the one or the other. -/
theorem ofScript_eq (script : Script) (o : RenderOptions α) : ofScript script o =
    script.load .empty >>= fun loaded =>
      (Layout.build (o.measured loaded.2) o.config.layout).map (picture o loaded.2) := by
  have hlaidOut : ∀ g, o.canvas.laidOut g =
      (Layout.build (o.measured g) o.config.layout).map (o.canvas.showing · (o.measured g)) :=
    laidOut_eq o.canvas
  have hempty : o.canvas.graph = .empty := rfl
  simp only [ofScript, hlaidOut, hempty]
  cases script.load (.empty : Graph α) with
  | error e => rfl
  | ok loaded =>
      obtain ⟨vars, g⟩ := loaded
      show ((Layout.build (o.measured g) o.config.layout).map (o.canvas.showing · (o.measured g)) >>= fun c =>
        pure (c.fit o.config.render.padding).draw) = (Layout.build (o.measured g) o.config.layout).map (picture o g)
      cases Layout.build (o.measured g) o.config.layout with
      | error e => rfl
      | ok l => rfl

theorem sameArgument_apply (o : RenderOptions α) (g : Graph α) (l : Layout α) :
    g.SameArgument (l.apply (o.measured g)) :=
  (o.sameArgument_measured g).trans (Graph.sameArgument_moveClaims ..)

theorem sameArgument_arranged (o : RenderOptions α) (g : Graph α) (l : Layout α) :
    g.SameArgument (arranged o g l).graph :=
  (sameArgument_apply o g l).trans (sameArgument_fit (o.canvas.showing l (o.measured g)) _)

theorem palette_arranged (o : RenderOptions α) (g : Graph α) (l : Layout α) :
    (arranged o g l).palette = o.style.palette := by
  rw [arranged, fit]
  split
  · rfl
  · rfl

theorem style_arranged (o : RenderOptions α) (g : Graph α) (l : Layout α) : (arranged o g l).style = o.style :=
  style_fits ((o.canvas.showing l (o.measured g)).fit_cases _)

theorem style_picture (o : RenderOptions α) (g : Graph α) (l : Layout α) : (picture o g l).style = o.style := by
  rw [picture, style_draw, style_arranged]

theorem ofScript_of_layout {script : Script} {o : RenderOptions α} {vars : Variables} {g : Graph α}
    {l : Layout α} (hload : script.load .empty = .ok (vars, g))
    (hbuild : Layout.build (o.measured g) o.config.layout = .ok l) :
    ofScript script o = .ok (picture o g l) := by
  rw [ofScript_eq, hload]
  show (Layout.build (o.measured g) o.config.layout).map (picture o g) = _
  rw [hbuild]
  rfl

end Canvas

end

variable {K : Type} [Field K] [LinearOrder K] [IsStrictOrderedRing K] [FloorSemiring K] [Angles K]
  {o : RenderOptions K} {g : Graph K} {l : Layout K} {id : ClaimId} {claim : Claim K} {c : Canvas K} {b : Rect K}

theorem Claim.rect_shifted_of_offset (h : claim.placement.offset = ⟨0.0, 0.0⟩) (dx dy : K) :
    (claim.shifted dx dy).rect = claim.rect.shifted dx dy := by
  rw [rect_shifted, h, exact_zero, add_zero, add_zero]

namespace Canvas

omit [IsStrictOrderedRing K] in
theorem claim?_arranged (hbounds : (l.apply (o.measured g)).bounds = some b) (id : ClaimId) :
    (arranged o g l).graph.claim? id = ((l.apply (o.measured g)).claim? id).map
      (·.shifted (o.config.render.padding - b.x) (o.config.render.padding - b.y)) :=
  claim?_fit (c := o.canvas.showing l (o.measured g)) hbounds o.config.render.padding id

/-- A claim that is arranged is as large as its text, and its box is the one of the layout, moved like all
others. -/
theorem exists_of_arranged (hg : g.Fresh) (hbuild : Layout.build (o.measured g) o.config.layout = .ok l)
    (hbounds : (l.apply (o.measured g)).bounds = some b)
    (hclaim : (arranged o g l).graph.claim? id = some claim) :
    ∃ before, (l.apply (o.measured g)).claim? id = some before ∧
      claim.rect = before.rect.shifted (o.config.render.padding - b.x) (o.config.render.padding - b.y) ∧
      claim.placement.size? = some (o.textSize claim.text) := by
  rw [claim?_arranged hbounds, Option.map_eq_some_iff] at hclaim
  obtain ⟨before, hbefore, rfl⟩ := hclaim
  have hshows := Layout.shows_apply_measured hg hbuild hbefore
  exact ⟨before, hbefore, Claim.rect_shifted_of_offset hshows.offset _ _, hshows.size?⟩

theorem boxes_arranged (hg : g.Fresh) (hbuild : Layout.build (o.measured g) o.config.layout = .ok l)
    (hbounds : (l.apply (o.measured g)).bounds = some b) :
    (arranged o g l).graph.boxes = {r | ∃ s ∈ (l.apply (o.measured g)).boxes,
      r = s.shifted (o.config.render.padding - b.x) (o.config.render.padding - b.y)} := by
  have hboxes := boxes_fit (c := o.canvas.showing l (o.measured g))
    (fun id claim hclaim => (Layout.shows_apply_measured hg hbuild hclaim).offset) hbounds o.config.render.padding
  rw [exact_zero, add_zero, add_zero] at hboxes
  exact hboxes

omit [IsStrictOrderedRing K] in
/-- A graph with a claim has bounds. -/
theorem exists_bounds_of_sameArgument {g' : Graph K} (h : g.SameArgument g') (hclaim : g.claim? id = some claim) :
    ∃ b, g'.bounds = some b := by
  obtain ⟨claim', hclaim'⟩ := h.exists_claim (Graph.mem_claimIds_iff.2 (Graph.contains_claim_iff.2 ⟨claim, hclaim⟩))
  cases hbounds : g'.bounds with
  | none => cases (Graph.claim?_of_bounds hbounds id).symm.trans hclaim'
  | some b => exact ⟨b, rfl⟩

/-- Drawing finds all claims measured. -/
theorem measureClaims_arranged (hg : g.Fresh) (hbuild : Layout.build (o.measured g) o.config.layout = .ok l) :
    (arranged o g l).measureClaims.2 = arranged o g l := by
  refine measureClaims_of_measured fun id hlive => ?_
  obtain ⟨claim, hclaim⟩ := Graph.contains_claim_iff.1 hlive
  obtain ⟨before, hbefore, -⟩ := (sameArgument_arranged o g l).claim? hclaim
  obtain ⟨b, hbounds⟩ := exists_bounds_of_sameArgument (sameArgument_apply o g l) hbefore
  obtain ⟨-, -, -, hsize⟩ := exists_of_arranged hg hbuild hbounds hclaim
  exact ⟨claim, hclaim, Option.isSome_of_eq_some hsize⟩

/-- What is arranged starts at the padding, on the left and at the top. -/
theorem exists_bounds_arranged (hg : g.Fresh) (hbuild : Layout.build (o.measured g) o.config.layout = .ok l)
    (hclaim : g.claim? id = some claim) : ∃ b, (arranged o g l).graph.bounds = some b ∧
      b.x = o.config.render.padding ∧ b.y = o.config.render.padding := by
  obtain ⟨before, hbefore⟩ := exists_bounds_of_sameArgument (sameArgument_apply o g l) hclaim
  obtain ⟨b, hb⟩ := exists_bounds_of_sameArgument (sameArgument_arranged o g l) hclaim
  have hmoved := (Graph.isHull_bounds hbefore).shifted
    (o.config.render.padding - before.x) (o.config.render.padding - before.y)
  rw [← boxes_arranged hg hbuild hbefore] at hmoved
  have hhull := Graph.isHull_bounds hb
  refine ⟨b, hb, ?_, ?_⟩
  · exact (hhull.left.unique hmoved.left).trans (add_sub_cancel ..)
  · exact (hhull.top.unique hmoved.top).trans (add_sub_cancel ..)

end Canvas

end ArgumentDiagram
