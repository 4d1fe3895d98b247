import ArgumentDiagram.Proofs.Graph.Growth

/-!
Deletion: the relations that a cascade removes are closed under what points at them, and all others stay as
they are. So no relation is left without its source or its target, and deleting keeps the invariant.
-/

namespace ArgumentDiagram.Graph

variable {α : Type} {g : Graph α}

section Cascade

variable {relations : Table RelationId Relation} {pending : List RelationId}

/-- Relations that are stored under their own handles. -/
def OwnKeys (relations : Table RelationId Relation) : Prop :=
  ∀ id r, relations.get? id = some r → r.id = id

theorem OwnKeys.erase (h : OwnKeys relations) (gone : RelationId) : OwnKeys (relations.erase gone) := by
  intro id r hget
  rw [Table.get?_erase] at hget
  split at hget
  · cases hget
  · exact h id r hget

theorem OwnKeys.ids_values (h : OwnKeys relations) : relations.values.map (·.id) = relations.keys := by
  rw [Table.values, Table.keys, List.map_map]
  apply List.map_congr_left
  intro entry hmem
  exact h _ _ (Table.get?_eq_some_iff.2 hmem)

/-- The handles of the relations with some property. -/
theorem OwnKeys.mem_filter_map (h : OwnKeys relations) {p : Relation → Bool} {id : RelationId} :
    id ∈ (relations.values.filter p).map (·.id) ↔ ∃ r, relations.get? id = some r ∧ p r := by
  simp only [List.mem_map, List.mem_filter, Table.mem_values_iff]
  constructor
  · rintro ⟨r, ⟨⟨key, hget⟩, hp⟩, rfl⟩
    rw [h key r hget]
    exact ⟨r, hget, hp⟩
  · rintro ⟨r, hget, hp⟩
    exact ⟨r, ⟨⟨id, hget⟩, hp⟩, h id r hget⟩

theorem OwnKeys.mem_pointingAt (h : OwnKeys relations) {id target : RelationId} :
    id ∈ pointingAt relations target ↔ ∃ r, relations.get? id = some r ∧ r.target = .relation target := by
  simp [pointingAt, h.mem_filter_map]

/-- What a cascade does not name stays as it was. -/
theorem get?_cascade (relations : Table RelationId Relation) (pending : List RelationId)
    (id : RelationId) : (cascade relations pending).2.get? id =
      if id ∈ (cascade relations pending).1 then none else relations.get? id := by
  fun_induction cascade relations pending with
  | case1 => simp
  | case2 relations first pending _ rest gone left heq ih =>
      rw [heq] at ih
      simp only [ih, List.mem_cons, rest, Table.get?_erase]
      by_cases hfirst : id = first <;> simp [hfirst]
  | case3 _ _ _ _ ih => exact ih

theorem mem_cascade_of_pending {id : RelationId} (hmem : id ∈ pending) (hlive : relations.contains id) :
    id ∈ (cascade relations pending).1 := by
  fun_induction cascade relations pending with
  | case1 => simp at hmem
  | case2 relations first pending _ rest gone left heq ih =>
      rw [heq] at ih
      by_cases hfirst : id = first
      · exact hfirst ▸ List.mem_cons_self
      · refine List.mem_cons_of_mem _ (ih (List.mem_append_right _ (List.mem_of_ne_of_mem hfirst hmem)) ?_)
        rw [Table.contains_iff] at hlive ⊢
        exact Table.mem_keys_erase.2 ⟨hfirst, hlive⟩
  | case3 relations first pending hdead ih =>
      rcases List.mem_cons.1 hmem with rfl | hmem
      · exact absurd hlive hdead
      · exact ih hmem hlive

/-- A cascade names only what was there. -/
theorem contains_of_mem_cascade {id : RelationId} (hmem : id ∈ (cascade relations pending).1) :
    relations.contains id := by
  fun_induction cascade relations pending with
  | case1 => simp at hmem
  | case2 relations first pending hlive rest gone left heq ih =>
      rcases List.mem_cons.1 hmem with rfl | hmem
      · exact hlive
      · rw [heq] at ih
        have hrest := Table.contains_iff.1 (ih hmem)
        exact Table.contains_iff.2 (Table.mem_keys_erase.1 hrest).2
  | case3 _ _ _ _ ih => exact ih hmem

/-- What points at a removed relation is removed too. -/
theorem mem_cascade_of_target (h : OwnKeys relations) {id target : RelationId} {r : Relation}
    (hgone : target ∈ (cascade relations pending).1) (hget : relations.get? id = some r)
    (htarget : r.target = .relation target) : id ∈ (cascade relations pending).1 := by
  fun_induction cascade relations pending with
  | case1 => simp at hgone
  | case2 relations first pending _ rest gone left heq ih =>
      by_cases hfirst : id = first
      · exact hfirst ▸ List.mem_cons_self
      have hrest : rest.get? id = some r := by rw [Table.get?_erase, if_neg hfirst, hget]
      refine List.mem_cons_of_mem _ ?_
      rw [heq] at ih
      rcases List.mem_cons.1 hgone with rfl | hgone
      · -- It was put on the list of what is to go when its target went.
        have hmem : id ∈ pointingAt rest target ++ pending :=
          List.mem_append_left _ ((h.erase target).mem_pointingAt.2 ⟨r, hrest, htarget⟩)
        have hlive : rest.contains id := by rw [Table.contains_eq_isSome, hrest, Option.isSome_some]
        have := mem_cascade_of_pending hmem hlive
        rwa [heq] at this
      · exact ih (h.erase first) hgone hrest
  | case3 _ _ _ _ ih => exact ih h hgone hget

end Cascade

theorem WellFormed.ownKeys (h : g.WellFormed) : OwnKeys g.relations := fun _ _ => h.relation_key

theorem WellFormed.mem_touching (h : g.WellFormed) {id : ClaimId} {other : RelationId} :
    other ∈ g.touching id ↔
      ∃ r, g.relation? other = some r ∧ (r.source = id ∨ r.target = .claim id) := by
  rw [touching, h.ownKeys.mem_filter_map]
  simp [relation?]

/-- What a deletion does to a graph, given the handles that it removed. Nothing that pointed at them or
started from them is left. -/
structure Removes (g : Graph α) (deleted : Deleted) (g' : Graph α) : Prop where
  claims_live : ∀ id ∈ deleted.claims, g.contains (.claim id)
  relations_live : ∀ id ∈ deleted.relations, g.contains (.relation id)
  claim? : ∀ id, g'.claim? id = if id ∈ deleted.claims then none else g.claim? id
  relation? : ∀ id, g'.relation? id = if id ∈ deleted.relations then none else g.relation? id
  nextClaim : g'.nextClaim = g.nextClaim
  nextRelation : g'.nextRelation = g.nextRelation
  touching : ∀ {id r c}, g.relation? id = some r → c ∈ deleted.claims →
    r.source = c ∨ r.target = .claim c → id ∈ deleted.relations
  pointing : ∀ {id r other}, g.relation? id = some r → other ∈ deleted.relations →
    r.target = .relation other → id ∈ deleted.relations

theorem removes_delete (h : g.WellFormed) (entity : Entity) :
    g.Removes (g.delete entity).1 (g.delete entity).2 := by
  rw [delete.eq_def]
  split
  next hlive =>
    cases entity with
    | claim id =>
        refine ⟨fun other hmem => List.mem_singleton.1 hmem ▸ hlive,
          fun other => contains_of_mem_cascade, fun other => ?_, fun other => get?_cascade ..,
          rfl, rfl, ?_, ?_⟩
        · rw [Graph.claim?, Table.get?_erase, Graph.claim?]
          simp
        · intro other r c hr hc hends
          obtain rfl := List.mem_singleton.1 hc
          exact mem_cascade_of_pending (h.mem_touching.2 ⟨r, hr, hends⟩)
            (contains_relation_iff.2 ⟨r, hr⟩)
        · intro other r target hr hgone htarget
          exact mem_cascade_of_target h.ownKeys hgone hr htarget
    | relation id =>
        refine ⟨?_, fun other => contains_of_mem_cascade, fun other => by simp [Graph.claim?],
          fun other => get?_cascade .., rfl, rfl, ?_, ?_⟩
        · intro other hmem
          simp at hmem
        · intro other r c hr hc
          simp at hc
        · intro other r target hr hgone htarget
          exact mem_cascade_of_target h.ownKeys hgone hr htarget
  next => constructor <;> simp [Deleted.none]

namespace Removes

variable {g' : Graph α} {deleted : Deleted}

theorem claim_of (h : g.Removes deleted g') {id : ClaimId} {c : Claim α} (hc : g'.claim? id = some c) :
    id ∉ deleted.claims ∧ g.claim? id = some c := by
  rw [h.claim?] at hc
  split at hc
  · cases hc
  next hkept => exact ⟨hkept, hc⟩

theorem relation_of (h : g.Removes deleted g') {id : RelationId} {r : Relation}
    (hr : g'.relation? id = some r) : id ∉ deleted.relations ∧ g.relation? id = some r := by
  rw [h.relation?] at hr
  split at hr
  · cases hr
  next hkept => exact ⟨hkept, hr⟩

theorem contains_of (h : g.Removes deleted g') {entity : Entity} (hlive : g'.contains entity) :
    g.contains entity := by
  cases entity with
  | claim id =>
      obtain ⟨c, hc⟩ := contains_claim_iff.1 hlive
      exact contains_claim_iff.2 ⟨c, (h.claim_of hc).2⟩
  | relation id =>
      obtain ⟨r, hr⟩ := contains_relation_iff.1 hlive
      exact contains_relation_iff.2 ⟨r, (h.relation_of hr).2⟩

theorem contains_claim (h : g.Removes deleted g') {id : ClaimId} (hkept : id ∉ deleted.claims)
    (hlive : g.contains (.claim id)) : g'.contains (.claim id) := by
  rw [contains_claim_iff, h.claim?, if_neg hkept]
  exact contains_claim_iff.1 hlive

theorem contains_relation (h : g.Removes deleted g') {id : RelationId} (hkept : id ∉ deleted.relations)
    (hlive : g.contains (.relation id)) : g'.contains (.relation id) := by
  rw [contains_relation_iff, h.relation?, if_neg hkept]
  exact contains_relation_iff.1 hlive

theorem later (h : g.Removes deleted g') : g.Later g' where
  nextClaim := Nat.le_of_eq h.nextClaim.symm
  nextRelation := Nat.le_of_eq h.nextRelation.symm
  not_revived hlive _ := h.contains_of hlive

theorem wellFormed (h : g.Removes deleted g') (hg : g.WellFormed) : g'.WellFormed where
  claim_key hc := hg.claim_key (h.claim_of hc).2
  relation_key hr := hg.relation_key (h.relation_of hr).2
  source_live {id r} hr := by
    obtain ⟨hkept, hr⟩ := h.relation_of hr
    exact h.contains_claim (fun hgone => hkept (h.touching hr hgone (.inl rfl))) (hg.source_live hr)
  target_live {id r} hr := by
    obtain ⟨hkept, hr⟩ := h.relation_of hr
    have hlive := hg.target_live hr
    cases htarget : r.target with
    | claim c =>
        rw [htarget] at hlive
        exact h.contains_claim (fun hgone => hkept (h.touching hr hgone (.inr htarget))) hlive
    | relation other =>
        rw [htarget] at hlive
        exact h.contains_relation (fun hgone => hkept (h.pointing hr hgone htarget)) hlive
  target_older hr := hg.target_older (h.relation_of hr).2
  claim_below hlive := by
    rw [h.nextClaim]
    exact hg.claim_below (h.contains_of hlive)
  relation_below hlive := by
    rw [h.nextRelation]
    exact hg.relation_below (h.contains_of hlive)

end Removes

end ArgumentDiagram.Graph
