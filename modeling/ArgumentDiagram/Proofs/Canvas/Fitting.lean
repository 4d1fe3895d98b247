import ArgumentDiagram.Proofs.Geometry.Hull
import ArgumentDiagram.Proofs.Canvas.Gesture

/-!
Fitting a canvas in exact arithmetic. Fitting turns the places where claims are seen into anchors and leaves their
offsets as they are, so a claim that is being dragged moves by its offset once more. Main statement: the claims
keep their distances and start at the padding exactly if none of them has an offset; sizes, offsets and the
container are right in any case.
-/

namespace ArgumentDiagram

/-- A claim somewhere else. -/
def Claim.shifted {α : Type} [Scalar α] (c : Claim α) (dx dy : α) : Claim α :=
  c.mapPlacement fun p => p.moveTo ⟨p.x + dx, p.y + dy⟩

theorem Canvas.sameArgument_fit {α : Type} [Scalar α] (c : Canvas α) (padding : α) :
    c.graph.SameArgument (c.fit padding).graph := by
  rw [fit]
  split
  · exact .refl _
  · exact Graph.sameArgument_updateAll ..

variable {K : Type} [Field K] [LinearOrder K] [FloorSemiring K] [Angles K]

/-- What was the offset is part of the anchor now, and still the offset. -/
theorem Claim.rect_shifted (claim : Claim K) (dx dy : K) : (claim.shifted dx dy).rect =
    claim.rect.shifted (dx + claim.placement.offset.x) (dy + claim.placement.offset.y) := by
  have hmoved : ∀ x d offset : K, x + d + offset = x + (d + offset) := add_assoc
  rw [Rect.shifted, ← hmoved, ← hmoved]
  rfl

/-- What fitting is for: the leftmost and the topmost claim start at the padding, and the claims keep their
distances. -/
structure Canvas.FittedInto (c c' : Canvas K) (padding : K) : Prop where
  left : IsLeast {x | ∃ r ∈ c'.graph.boxes, r.x = x} padding
  top : IsLeast {y | ∃ r ∈ c'.graph.boxes, r.y = y} padding
  rigid : ∀ {id other claim claim' neighbour neighbour'}, c.graph.claim? id = some claim →
    c'.graph.claim? id = some claim' → c.graph.claim? other = some neighbour →
    c'.graph.claim? other = some neighbour' →
    claim'.placement.x - neighbour'.placement.x = claim.placement.x - neighbour.placement.x ∧
      claim'.placement.y - neighbour'.placement.y = claim.placement.y - neighbour.placement.y

namespace Canvas

variable {c : Canvas K} {b before after : Rect K} {id : ClaimId} {claim : Claim K}

theorem claim?_fit (hbounds : c.graph.bounds = some b) (padding : K) (id : ClaimId) :
    (c.fit padding).graph.claim? id = (c.graph.claim? id).map (·.shifted (padding - b.x) (padding - b.y)) := by
  have hmoved : ∀ x start : K, x - start + padding = x + (padding - start) := fun x start => by
    rw [sub_add_eq_add_sub, add_sub_assoc]
  rw [fit, hbounds]
  refine (Graph.claim?_updateAll ..).trans ?_
  congr 1
  funext claim
  rw [Claim.shifted, Claim.mapPlacement, ← hmoved, ← hmoved]

theorem claim?_fit_of_some (hbounds : c.graph.bounds = some b) (padding : K)
    (hclaim : c.graph.claim? id = some claim) :
    (c.fit padding).graph.claim? id = some (claim.shifted (padding - b.x) (padding - b.y)) := by
  rw [claim?_fit hbounds, hclaim, Option.map_some]

/-- A graph with a claim has bounds, before and after it is fitted. -/
theorem exists_bounds_fit (hclaim : c.graph.claim? id = some claim) (padding : K) :
    ∃ before after, c.graph.bounds = some before ∧ (c.fit padding).graph.bounds = some after := by
  cases hbefore : c.graph.bounds with
  | none => cases (Graph.claim?_of_bounds hbefore id).symm.trans hclaim
  | some before =>
      cases hafter : (c.fit padding).graph.bounds with
      | none =>
          have hmoved := claim?_fit_of_some hbefore padding hclaim
          cases (Graph.claim?_of_bounds hafter id).symm.trans hmoved
      | some after => exact ⟨before, after, rfl, rfl⟩

theorem container_fit {padding : K} (hbefore : c.graph.bounds = some before)
    (hafter : (c.fit padding).graph.bounds = some after) :
    (c.fit padding).container = ⟨padding + after.right, padding + after.bottom⟩ := by
  have hcontainer : (c.fit padding).container = ⟨padding + (c.fit padding).graph.extent.width,
      padding + (c.fit padding).graph.extent.height⟩ := by
    rw [fit, hbefore]
    rfl
  rw [hcontainer, Graph.extent, hafter]

section

variable {offset : Point K} (hoffset : ∀ id claim, c.graph.claim? id = some claim → claim.placement.offset = offset)

include hoffset

/-- Boxes with the same offset move the same way, further than they should by that offset. -/
theorem boxes_fit (hbounds : c.graph.bounds = some b) (padding : K) : (c.fit padding).graph.boxes =
    {r | ∃ s ∈ c.graph.boxes, r = s.shifted (padding - b.x + offset.x) (padding - b.y + offset.y)} := by
  ext r
  constructor
  · rintro ⟨id, claim', hclaim', rfl⟩
    rw [claim?_fit hbounds, Option.map_eq_some_iff] at hclaim'
    obtain ⟨claim, hclaim, rfl⟩ := hclaim'
    refine ⟨claim.rect, ⟨id, claim, hclaim, rfl⟩, ?_⟩
    rw [Claim.rect_shifted, hoffset id claim hclaim]
  · rintro ⟨_, ⟨id, claim, hclaim, rfl⟩, rfl⟩
    refine ⟨id, _, claim?_fit_of_some hbounds padding hclaim, ?_⟩
    rw [Claim.rect_shifted, hoffset id claim hclaim]

variable [IsStrictOrderedRing K]

theorem isLeast_boxes_fit (hbounds : c.graph.bounds = some b) (padding : K) :
    IsLeast {x | ∃ r ∈ (c.fit padding).graph.boxes, r.x = x} (padding + offset.x) ∧
      IsLeast {y | ∃ r ∈ (c.fit padding).graph.boxes, r.y = y} (padding + offset.y) := by
  have hhull := (Graph.isHull_bounds hbounds).shifted (padding - b.x + offset.x) (padding - b.y + offset.y)
  rw [← boxes_fit hoffset hbounds padding] at hhull
  have hstart : ∀ start d : K, start + (padding - start + d) = padding + d := fun start d => by
    rw [← add_assoc, add_sub_cancel]
  refine ⟨?_, ?_⟩
  · rw [← hstart b.x]
    exact hhull.left
  · rw [← hstart b.y]
    exact hhull.top

end

/-! ### When fitting does what it is for -/

variable [IsStrictOrderedRing K]

/-- Claims that keep their distances have the same offset. -/
theorem FittedInto.offset_eq {padding : K} (h : c.FittedInto (c.fit padding) padding) {other : ClaimId}
    {neighbour : Claim K} (hclaim : c.graph.claim? id = some claim)
    (hneighbour : c.graph.claim? other = some neighbour) :
    claim.placement.offset = neighbour.placement.offset := by
  obtain ⟨b, -, hbounds, -⟩ := exists_bounds_fit hclaim padding
  obtain ⟨hx, hy⟩ := h.rigid hclaim (claim?_fit_of_some hbounds padding hclaim) hneighbour
    (claim?_fit_of_some hbounds padding hneighbour)
  have hcancel : ∀ x x' d o o' : K, x + d + o - (x' + d + o') = x - x' → o = o' := by
    intro x x' d o o' hsame
    linarith
  have hsameX := hcancel _ _ (padding - b.x) claim.placement.offset.x neighbour.placement.offset.x hx
  have hsameY := hcancel _ _ (padding - b.y) claim.placement.offset.y neighbour.placement.offset.y hy
  calc claim.placement.offset = ⟨claim.placement.offset.x, claim.placement.offset.y⟩ := rfl
    _ = ⟨neighbour.placement.offset.x, neighbour.placement.offset.y⟩ := by rw [hsameX, hsameY]
    _ = neighbour.placement.offset := rfl

/-- Fitting does what it is for exactly if no claim has an offset. -/
theorem fittedInto_fit_iff (hclaim : c.graph.claim? id = some claim) (padding : K) :
    c.FittedInto (c.fit padding) padding ↔ ∀ id, c.graph.Rests id := by
  obtain ⟨b, -, hbounds, -⟩ := exists_bounds_fit hclaim padding
  constructor
  · intro h
    have hoffset : ∀ other neighbour, c.graph.claim? other = some neighbour →
        neighbour.placement.offset = claim.placement.offset :=
      fun other neighbour hneighbour => h.offset_eq hneighbour hclaim
    -- the common offset is what the least coordinates are off the padding by
    obtain ⟨hleft, htop⟩ := isLeast_boxes_fit hoffset hbounds padding
    have hx : claim.placement.offset.x = 0 := add_eq_left.1 (hleft.unique h.left)
    have hy : claim.placement.offset.y = 0 := add_eq_left.1 (htop.unique h.top)
    intro other neighbour hneighbour
    calc neighbour.placement.offset = ⟨claim.placement.offset.x, claim.placement.offset.y⟩ :=
          hoffset other neighbour hneighbour
      _ = ⟨0.0, 0.0⟩ := by rw [hx, hy, exact_zero]
  · intro hrests
    obtain ⟨hleft, htop⟩ := isLeast_boxes_fit hrests hbounds padding
    rw [exact_zero, add_zero] at hleft htop
    refine ⟨hleft, htop, ?_⟩
    intro id other claim claim' neighbour neighbour' hclaim hclaim' hneighbour hneighbour'
    have hmoved := claim?_fit_of_some hbounds padding hclaim
    have hmovedNeighbour := claim?_fit_of_some hbounds padding hneighbour
    obtain rfl := Option.some.inj (hmoved.symm.trans hclaim')
    obtain rfl := Option.some.inj (hmovedNeighbour.symm.trans hneighbour')
    have hdistance : ∀ x x' d o o' : K, o = o' → x + d + o - (x' + d + o') = x - x' := by
      rintro x x' d o _ rfl
      rw [add_sub_add_right_eq_sub, add_sub_add_right_eq_sub]
    have hsame : claim.placement.offset = neighbour.placement.offset :=
      (hrests id claim hclaim).trans (hrests other neighbour hneighbour).symm
    exact ⟨hdistance _ _ (padding - b.x) _ _ (congrArg Point.x hsame),
      hdistance _ _ (padding - b.y) _ _ (congrArg Point.y hsame)⟩

/-- Fitting takes the claims to the padding and keeps their distances exactly if none of them has an offset. In any
case each claim moves by the way from the bounds to the padding and by its own offset once more, keeps its offset
and its size, and the container ends at the padding from where the claims then reach. -/
theorem fitted_iff_rests (hclaim : c.graph.claim? id = some claim) (padding : K) :
    (c.FittedInto (c.fit padding) padding ↔ ∀ id, c.graph.Rests id) ∧
      c.graph.SameArgument (c.fit padding).graph ∧
      ∃ before after : Rect K, before.IsHull c.graph.boxes ∧ after.IsHull (c.fit padding).graph.boxes ∧
        (c.fit padding).container = ⟨padding + after.right, padding + after.bottom⟩ ∧
        ∀ {other claim claim'}, c.graph.claim? other = some claim →
          (c.fit padding).graph.claim? other = some claim' →
          claim'.placement.offset = claim.placement.offset ∧
            claim'.placement.width = claim.placement.width ∧ claim'.placement.height = claim.placement.height ∧
            claim'.placement.x = claim.placement.x + (padding - before.x) + claim.placement.offset.x ∧
            claim'.placement.y = claim.placement.y + (padding - before.y) + claim.placement.offset.y := by
  obtain ⟨before, after, hbefore, hafter⟩ := exists_bounds_fit hclaim padding
  refine ⟨fittedInto_fit_iff hclaim padding, sameArgument_fit c padding, before, after,
    Graph.isHull_bounds hbefore, Graph.isHull_bounds hafter, container_fit hbefore hafter, ?_⟩
  intro other claim claim' hclaim hclaim'
  obtain rfl := Option.some.inj ((claim?_fit_of_some hbefore padding hclaim).symm.trans hclaim')
  exact ⟨rfl, rfl, rfl, rfl, rfl⟩

/-- Two claims, one of them moved by a key. -/
theorem fitted_iff_rests_after_key :
    let operations : List (CanvasOperation ℚ) :=
      [.addClaim "a" .plain, .addClaim "b" .plain, .keyDown .tab false, .keyDown .arrowLeft false]
    let c := (create (.blank 0 0 .estimate) ⟨100, 100⟩ (.ofTheme .classic 1)).after operations
    (∃ claim, c.graph.claim? ⟨0⟩ = some claim) ∧ c.FittedInto (c.fit 5) 5 := by
  intro operations c
  have hoffsets : ∀ claim ∈ c.graph.claims.values, claim.placement.offset = ⟨0.0, 0.0⟩ := by decide +kernel
  have hrests : ∀ id, c.graph.Rests id :=
    fun id claim hclaim => hoffsets claim (Table.mem_values_iff.2 ⟨id, hclaim⟩)
  have hlive : ∃ claim, c.graph.claim? ⟨0⟩ = some claim :=
    Option.isSome_iff_exists.1 (show (c.graph.claim? ⟨0⟩).isSome by decide +kernel)
  obtain ⟨claim, hclaim⟩ := hlive
  exact ⟨⟨claim, hclaim⟩, (fitted_iff_rests hclaim 5).1.2 hrests⟩

/-- A claim that is dragged to the left is moved there once more, and ends to the left of the padding. -/
theorem exists_fit_offset_twice :
    let operations : List (CanvasOperation ℚ) :=
      [.addClaim "a" .plain, .addClaim "b" .plain, .keyDown .tab false, .pointerDown ⟨0, 0⟩ false,
        .pointerMove ⟨-10, 0⟩]
    let c := (create (.blank 0 0 .estimate) ⟨100, 100⟩ (.ofTheme .classic 1)).after operations
    c.graph.claims.values.map (·.placement.x) = [-10, 0] ∧
      (c.fit 5).graph.claims.values.map (·.placement.x) = [-5, 15] ∧ ¬c.FittedInto (c.fit 5) 5 := by
  intro operations c
  have hbefore : c.graph.claims.values.map (·.placement.x) = [-10, 0] := by decide +kernel
  have hafter : (c.fit 5).graph.claims.values.map (·.placement.x) = [-5, 15] := by decide +kernel
  refine ⟨hbefore, hafter, fun h => ?_⟩
  have hmem : (-5 : ℚ) ∈ (c.fit 5).graph.claims.values.map (·.placement.x) := by
    rw [hafter]
    exact List.mem_cons_self
  obtain ⟨claim, hvalue, hx⟩ := List.mem_map.1 hmem
  obtain ⟨id, hclaim⟩ := Table.mem_values_iff.1 hvalue
  have hpadding : (5 : ℚ) ≤ -5 := h.left.2 ⟨claim.rect, ⟨id, claim, hclaim, rfl⟩, hx⟩
  norm_num at hpadding

end Canvas

end ArgumentDiagram
