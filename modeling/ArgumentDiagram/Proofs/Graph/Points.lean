import ArgumentDiagram.Graph.Query
import ArgumentDiagram.Proofs.Graph.WellFormed

/-!
Points of entities. A relation lies between its source and its target, and chains of targets get older, so
all that is live has a point and a box, and nothing else has.
-/

namespace ArgumentDiagram.Graph

variable {α : Type} [Scalar α] {g : Graph α}

theorem live_of_relationPoint {ofClaim : Claim α → Point α} {id : RelationId}
    (h : (g.relationPoint ofClaim id).isSome) : g.contains (.relation id) := by
  rw [relationPoint, Option.bind_eq_bind, Option.isSome_bind] at h
  cases hr : g.relation? id with
  | none => simp [hr] at h
  | some r => exact contains_relation_iff.2 ⟨r, hr⟩

/-- No point of a target is left out for being too young. -/
theorem WellFormed.relationPoint_eq (h : g.WellFormed) (ofClaim : Claim α → Point α) {id : RelationId}
    {r : Relation} (hr : g.relation? id = some r) : g.relationPoint ofClaim id =
      (g.pointOf ofClaim (.claim r.source)).bind fun source =>
        (g.pointOf ofClaim r.target).map source.midpoint := by
  rw [relationPoint, hr, Option.bind_eq_bind, Option.bind_some, Option.bind_eq_bind]
  congr 1
  funext source
  cases htarget : r.target with
  | claim target =>
      rw [pointOf, Option.map_eq_bind]
      rfl
  | relation target =>
      have holder : target.index < id.index := h.target_older hr htarget
      rw [pointOf, Option.map_eq_bind]
      dsimp only
      rw [if_pos holder]
      rfl

/-- By induction on the age of the relation: its target is older. -/
theorem WellFormed.exists_relationPoint (h : g.WellFormed) (ofClaim : Claim α → Point α) {id : RelationId}
    (hlive : g.contains (.relation id)) : ∃ point, g.relationPoint ofClaim id = some point := by
  induction hindex : id.index using Nat.strongRecOn generalizing id with
  | ind n ih =>
      obtain ⟨r, hr⟩ := contains_relation_iff.1 hlive
      obtain ⟨source, hsource⟩ := contains_claim_iff.1 (h.source_live hr)
      have htarget : ∃ target, g.pointOf ofClaim r.target = some target := by
        have hends := h.target_live hr
        cases hcase : r.target with
        | claim target =>
            rw [hcase] at hends
            obtain ⟨claim, hclaim⟩ := contains_claim_iff.1 hends
            exact ⟨ofClaim claim, by rw [pointOf, hclaim, Option.map_some]⟩
        | relation target =>
            rw [hcase] at hends
            exact ih target.index (hindex ▸ h.target_older hr hcase) hends rfl
      obtain ⟨target, htarget⟩ := htarget
      refine ⟨(ofClaim source).midpoint target, ?_⟩
      rw [h.relationPoint_eq ofClaim hr, pointOf, hsource, htarget]
      rfl

/-- The live entities are those that have a point. -/
theorem WellFormed.isSome_pointOf (h : g.WellFormed) (ofClaim : Claim α → Point α) (entity : Entity) :
    (g.pointOf ofClaim entity).isSome = g.contains entity := by
  cases entity with
  | claim id => rw [pointOf, Option.isSome_map, contains, Table.contains_eq_isSome, claim?]
  | relation id =>
      rw [pointOf, Bool.eq_iff_iff]
      refine ⟨live_of_relationPoint, fun hlive => ?_⟩
      obtain ⟨point, hpoint⟩ := h.exists_relationPoint ofClaim hlive
      rw [hpoint, Option.isSome_some]

theorem WellFormed.isSome_boxOf (h : g.WellFormed) (entity : Entity) :
    (g.boxOf entity).isSome = g.contains entity := by
  cases entity with
  | claim id => rw [boxOf, Option.isSome_map, contains, Table.contains_eq_isSome, claim?]
  | relation id => rw [boxOf, Option.isSome_map, center, h.isSome_pointOf]

end ArgumentDiagram.Graph
