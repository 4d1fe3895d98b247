import ArgumentDiagram.Graph.Delete
import ArgumentDiagram.Graph.Edit
import ArgumentDiagram.Table.Lemmas

/-!
The invariant of argument graphs: entities are stored under their own handles, relations start and end at
live entities, a relation is younger than a relation that it points at, and every handle in use lies below
its counter. Adding entities keeps it, and so does whatever changes nothing but placements.
-/

namespace ArgumentDiagram

/-- All of a claim but its placement. -/
def Claim.said {α : Type} (c : Claim α) : ClaimId × List String × Metadata := (c.id, c.text, c.metadata)

namespace Graph

variable {α : Type} {g g' : Graph α}

structure WellFormed (g : Graph α) : Prop where
  claim_key : ∀ {id c}, g.claim? id = some c → c.id = id
  relation_key : ∀ {id r}, g.relation? id = some r → r.id = id
  source_live : ∀ {id r}, g.relation? id = some r → g.contains (.claim r.source)
  target_live : ∀ {id r}, g.relation? id = some r → g.contains r.target
  /-- So a chain of targets gets older at each step, and cannot go around. -/
  target_older : ∀ {id r other}, g.relation? id = some r → r.target = .relation other →
    other.index < id.index
  claim_below : ∀ {id}, g.contains (.claim id) → id.index < g.nextClaim
  relation_below : ∀ {id}, g.contains (.relation id) → id.index < g.nextRelation

/-- Two graphs with the same relations between the same claims, whatever these say. -/
structure SameEntities (g g' : Graph α) : Prop where
  claims : ∀ id, (g'.claim? id).map (·.id) = (g.claim? id).map (·.id)
  relations : g'.relations = g.relations
  nextClaim : g'.nextClaim = g.nextClaim
  nextRelation : g'.nextRelation = g.nextRelation

/-- Two graphs that make the same argument: placements and the revision apart, they do not differ. -/
structure SameArgument (g g' : Graph α) : Prop where
  claims : ∀ id, (g'.claim? id).map Claim.said = (g.claim? id).map Claim.said
  relations : g'.relations = g.relations
  nextClaim : g'.nextClaim = g.nextClaim
  nextRelation : g'.nextRelation = g.nextRelation

theorem contains_claim_iff {id : ClaimId} : g.contains (.claim id) ↔ ∃ c, g.claim? id = some c := by
  rw [contains, claim?, Table.contains_eq_isSome, Option.isSome_iff_exists]

theorem contains_relation_iff {id : RelationId} :
    g.contains (.relation id) ↔ ∃ r, g.relation? id = some r := by
  rw [contains, relation?, Table.contains_eq_isSome, Option.isSome_iff_exists]

theorem mem_claimIds_iff {id : ClaimId} : id ∈ g.claimIds ↔ g.contains (.claim id) := by
  rw [claimIds, contains, Table.contains_iff]

theorem wellFormed_empty : (empty : Graph α).WellFormed where
  claim_key h := by simp [claim?, empty] at h
  relation_key h := by simp [relation?, empty] at h
  source_live h := by simp [relation?, empty] at h
  target_live h := by simp [relation?, empty] at h
  target_older h := by simp [relation?, empty] at h
  claim_below h := by simp [contains_claim_iff, claim?, empty] at h
  relation_below h := by simp [contains_relation_iff, relation?, empty] at h

namespace SameEntities

theorem contains (h : g.SameEntities g') (entity : Entity) : g'.contains entity = g.contains entity := by
  cases entity with
  | claim id =>
      have hsome := congrArg Option.isSome (h.claims id)
      rw [Option.isSome_map, Option.isSome_map] at hsome
      rw [Graph.contains, Graph.contains, Table.contains_eq_isSome, Table.contains_eq_isSome]
      exact hsome
  | relation id => rw [Graph.contains, Graph.contains, h.relations]

theorem relation? (h : g.SameEntities g') (id : RelationId) : g'.relation? id = g.relation? id := by
  rw [Graph.relation?, h.relations, Graph.relation?]

theorem wellFormed (h : g.SameEntities g') (hg : g.WellFormed) : g'.WellFormed where
  claim_key {id c'} hc' := by
    have hid := h.claims id
    rw [hc', Option.map_some, eq_comm, Option.map_eq_some_iff] at hid
    obtain ⟨c, hc, heq⟩ := hid
    exact heq.symm.trans (hg.claim_key hc)
  relation_key hr := hg.relation_key (h.relation? _ ▸ hr)
  source_live hr := by
    rw [h.contains]
    exact hg.source_live (h.relation? _ ▸ hr)
  target_live hr := by
    rw [h.contains]
    exact hg.target_live (h.relation? _ ▸ hr)
  target_older hr := hg.target_older (h.relation? _ ▸ hr)
  claim_below hlive := by
    rw [h.contains] at hlive
    rw [h.nextClaim]
    exact hg.claim_below hlive
  relation_below hlive := by
    rw [h.contains] at hlive
    rw [h.nextRelation]
    exact hg.relation_below hlive

end SameEntities

namespace SameArgument

theorem refl (g : Graph α) : g.SameArgument g := ⟨fun _ => rfl, rfl, rfl, rfl⟩

theorem symm (h : g.SameArgument g') : g'.SameArgument g :=
  ⟨fun id => (h.claims id).symm, h.relations.symm, h.nextClaim.symm, h.nextRelation.symm⟩

theorem trans {g'' : Graph α} (h : g.SameArgument g') (h' : g'.SameArgument g'') :
    g.SameArgument g'' where
  claims id := (h'.claims id).trans (h.claims id)
  relations := h'.relations.trans h.relations
  nextClaim := h'.nextClaim.trans h.nextClaim
  nextRelation := h'.nextRelation.trans h.nextRelation

theorem relation? (h : g.SameArgument g') (id : RelationId) : g'.relation? id = g.relation? id := by
  rw [Graph.relation?, h.relations, Graph.relation?]

theorem claim? (h : g.SameArgument g') {id : ClaimId} {c' : Claim α} (hc : g'.claim? id = some c') :
    ∃ c, g.claim? id = some c ∧ c.said = c'.said := by
  have hmap := h.claims id
  rw [hc, Option.map_some, eq_comm, Option.map_eq_some_iff] at hmap
  exact hmap

theorem sameEntities (h : g.SameArgument g') : g.SameEntities g' where
  claims id := by
    have hids := congrArg (Option.map Prod.fst) (h.claims id)
    rw [Option.map_map, Option.map_map] at hids
    exact hids
  relations := h.relations
  nextClaim := h.nextClaim
  nextRelation := h.nextRelation

theorem contains (h : g.SameArgument g') (entity : Entity) : g'.contains entity = g.contains entity :=
  h.sameEntities.contains entity

theorem wellFormed (h : g.SameArgument g') (hg : g.WellFormed) : g'.WellFormed := h.sameEntities.wellFormed hg

end SameArgument

/-! ### Claims that are worked on -/

theorem claim?_editClaim (g : Graph α) (id other : ClaimId) (edit : Claim α → Claim α) :
    (g.editClaim id edit).claim? other = (g.claim? other).map (if other = id then edit else fun c => c) := by
  rw [editClaim]
  split
  next => exact Table.get?_modify ..
  next hdead =>
    by_cases h : other = id
    · have hnone : g.claim? id = none := by
        simpa [Graph.claim?, Table.contains_eq_isSome] using hdead
      rw [h, hnone, Option.map_none]
    · rw [if_neg h, Option.map_id']

/-- A claim that keeps its handle can come to say anything. -/
theorem sameEntities_editClaim (g : Graph α) (id : ClaimId) {edit : Claim α → Claim α}
    (hid : ∀ c, (edit c).id = c.id) : g.SameEntities (g.editClaim id edit) := by
  refine ⟨fun other => ?_, ?_, ?_, ?_⟩
  · rw [claim?_editClaim, Option.map_map]
    congr 1
    funext c
    by_cases h : other = id <;> simp [h, hid]
  all_goals
    rw [editClaim]
    split <;> rfl

theorem claim?_updateClaim (g : Graph α) (id other : ClaimId) (f : Placement α → Placement α) :
    (g.updateClaim id f).claim? other =
      (g.claim? other).map (if other = id then Claim.mapPlacement f else fun c => c) :=
  g.claim?_editClaim id other (Claim.mapPlacement f)

theorem sameArgument_updateClaim (g : Graph α) (id : ClaimId) (f : Placement α → Placement α) :
    g.SameArgument (g.updateClaim id f) := by
  refine ⟨fun other => ?_, ?_, ?_, ?_⟩
  · rw [claim?_updateClaim, Option.map_map]
    congr 1
    funext c
    by_cases h : other = id <;> simp [h, Claim.said, Claim.mapPlacement]
  all_goals
    rw [updateClaim]
    split <;> rfl

theorem claim?_updateAll (g : Graph α) (f : Claim α → Placement α) (id : ClaimId) :
    (g.updateAll f).claim? id = (g.claim? id).map fun c => { c with placement := f c } :=
  Table.get?_mapValues ..

theorem sameArgument_updateAll (g : Graph α) (f : Claim α → Placement α) :
    g.SameArgument (g.updateAll f) := by
  refine ⟨fun id => ?_, rfl, rfl, rfl⟩
  simp only [Graph.claim?, updateAll, Table.get?_mapValues, Option.map_map]
  rfl

theorem claim?_updateWhere (g : Graph α) (which : Claim α → Bool) (f : Claim α → Claim α)
    (id : ClaimId) :
    (g.updateWhere which f).2.claim? id = (g.claim? id).map fun c => if which c then f c else c := by
  rw [updateWhere]
  split
  next hnone =>
    cases hc : g.claim? id with
    | none => rfl
    | some c =>
        have hwhich := List.countP_eq_zero.1 hnone c (Table.mem_values_iff.2 ⟨id, hc⟩)
        rw [Option.map_some, if_neg hwhich]
  next => exact Table.get?_mapValues ..

theorem sameArgument_updateWhere (g : Graph α) (which : Claim α → Bool) (f : Claim α → Claim α)
    (hf : ∀ c, (f c).said = c.said) : g.SameArgument (g.updateWhere which f).2 := by
  refine ⟨fun id => ?_, ?_, ?_, ?_⟩
  · rw [claim?_updateWhere, Option.map_map]
    congr 1
    funext c
    by_cases h : which c <;> simp [h, hf]
  all_goals
    rw [updateWhere]
    split <;> rfl

theorem sameArgument_measureClaims [Scalar α] (g : Graph α) (sizeOf : List String → Size α) :
    g.SameArgument (g.measureClaims sizeOf).2 :=
  sameArgument_updateWhere g _ _ fun _ => rfl

theorem sameArgument_forgetSizes [Scalar α] (g : Graph α) : g.SameArgument g.forgetSizes.2 :=
  sameArgument_updateWhere g _ _ fun _ => rfl

end Graph

end ArgumentDiagram
