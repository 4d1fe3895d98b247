import ArgumentDiagram.Proofs.Graph.WellFormed
import ArgumentDiagram.Proofs.Outcome

/-!
Growth: adding claims and relations keeps the invariant and all that a graph holds. New entities have
handles that were not given out before, and the handle that is handed back is live.
-/

namespace ArgumentDiagram.Graph

variable {α : Type} {g g' g'' : Graph α}

/-- Whether a handle was given out, be it live or deleted by now. -/
def Issued (g : Graph α) : Entity → Prop
  | .claim id => id.index < g.nextClaim
  | .relation id => id.index < g.nextRelation

/-- What a later state owes to an earlier one: a handle that was given out and is dead stays dead. -/
structure Later (g g' : Graph α) : Prop where
  nextClaim : g.nextClaim ≤ g'.nextClaim
  nextRelation : g.nextRelation ≤ g'.nextRelation
  not_revived : ∀ {entity}, g'.contains entity → g.Issued entity → g.contains entity

/-- What a state that only had entities added owes to the state before. -/
structure Grows (g g' : Graph α) : Prop extends Later g g' where
  claim? : ∀ {id c}, g.claim? id = some c → g'.claim? id = some c
  relation? : ∀ {id r}, g.relation? id = some r → g'.relation? id = some r

theorem WellFormed.issued (h : g.WellFormed) {entity : Entity} (hlive : g.contains entity) :
    g.Issued entity := by
  cases entity with
  | claim id => exact h.claim_below hlive
  | relation id => exact h.relation_below hlive

namespace Later

theorem refl (g : Graph α) : g.Later g := ⟨Nat.le_refl _, Nat.le_refl _, fun h _ => h⟩

theorem issued (h : g.Later g') {entity : Entity} (hissued : g.Issued entity) : g'.Issued entity := by
  cases entity with
  | claim id => exact Nat.lt_of_lt_of_le hissued h.nextClaim
  | relation id => exact Nat.lt_of_lt_of_le hissued h.nextRelation

theorem trans (h : g.Later g') (h' : g'.Later g'') : g.Later g'' where
  nextClaim := Nat.le_trans h.nextClaim h'.nextClaim
  nextRelation := Nat.le_trans h.nextRelation h'.nextRelation
  not_revived hlive hissued := h.not_revived (h'.not_revived hlive (h.issued hissued)) hissued

theorem of_sameArgument (h : g.SameArgument g') : g.Later g' where
  nextClaim := Nat.le_of_eq h.nextClaim.symm
  nextRelation := Nat.le_of_eq h.nextRelation.symm
  not_revived {entity} hlive _ := h.contains entity ▸ hlive

end Later

theorem SameArgument.wellFormed_later (h : g.SameArgument g') (hg : g.WellFormed) :
    g'.WellFormed ∧ g.Later g' :=
  ⟨h.wellFormed hg, .of_sameArgument h⟩

namespace Grows

theorem refl (g : Graph α) : g.Grows g := ⟨.refl g, id, id⟩

theorem trans (h : g.Grows g') (h' : g'.Grows g'') : g.Grows g'' :=
  ⟨h.toLater.trans h'.toLater, fun hc => h'.claim? (h.claim? hc), fun hr => h'.relation? (h.relation? hr)⟩

theorem contains (h : g.Grows g') {entity : Entity} (hlive : g.contains entity) : g'.contains entity := by
  cases entity with
  | claim id =>
      obtain ⟨c, hc⟩ := contains_claim_iff.1 hlive
      exact contains_claim_iff.2 ⟨c, h.claim? hc⟩
  | relation id =>
      obtain ⟨r, hr⟩ := contains_relation_iff.1 hlive
      exact contains_relation_iff.2 ⟨r, h.relation? hr⟩

end Grows

section Relation

variable (g : Graph α) (source : ClaimId) (target : Entity) (kind : Option RelationKind)
  (metadata : Metadata)

theorem relation?_pushRelation (id : RelationId) :
    (g.pushRelation source target kind metadata).2.relation? id =
      if id = ⟨g.nextRelation⟩ then some ⟨⟨g.nextRelation⟩, source, target, kind, metadata⟩
      else g.relation? id :=
  Table.get?_insert ..

theorem contains_pushRelation (entity : Entity) :
    (g.pushRelation source target kind metadata).2.contains entity ↔
      entity = .relation ⟨g.nextRelation⟩ ∨ g.contains entity := by
  cases entity with
  | claim id => simp [contains, pushRelation]
  | relation id =>
      rw [contains_relation_iff, contains_relation_iff, relation?_pushRelation]
      by_cases h : id = ⟨g.nextRelation⟩ <;> simp [h]

end Relation

theorem grows_pushRelation (h : g.WellFormed) (source : ClaimId) (target : Entity)
    (kind : Option RelationKind) (metadata : Metadata) :
    g.Grows (g.pushRelation source target kind metadata).2 where
  nextClaim := Nat.le_refl _
  nextRelation := Nat.le_succ _
  not_revived {entity} hlive hissued := by
    rcases (contains_pushRelation ..).1 hlive with rfl | hlive
    · exact absurd hissued (Nat.lt_irrefl _)
    · exact hlive
  claim? hc := hc
  relation? {id r} hr := by
    have hne : id ≠ ⟨g.nextRelation⟩ := by
      rintro rfl
      exact Nat.lt_irrefl _ (h.relation_below (contains_relation_iff.2 ⟨r, hr⟩))
    rw [relation?_pushRelation, if_neg hne, hr]

theorem WellFormed.pushRelation (h : g.WellFormed) {source : ClaimId} {target : Entity}
    (hsource : g.contains (.claim source)) (htarget : g.contains target)
    (kind : Option RelationKind) (metadata : Metadata) :
    (g.pushRelation source target kind metadata).2.WellFormed := by
  have hgrows := grows_pushRelation h source target kind metadata
  -- A relation of the new graph is the one that was added, or it was there before.
  have hcases : ∀ {id r}, (g.pushRelation source target kind metadata).2.relation? id = some r →
      (id = ⟨g.nextRelation⟩ ∧ r = ⟨⟨g.nextRelation⟩, source, target, kind, metadata⟩) ∨
        g.relation? id = some r := by
    intro id r hr
    rw [relation?_pushRelation] at hr
    split at hr
    next heq => exact .inl ⟨heq, (Option.some.inj hr).symm⟩
    next => exact .inr hr
  refine ⟨fun hc => h.claim_key hc, fun {id r} hr => ?_, fun {id r} hr => ?_, fun {id r} hr => ?_,
    fun {id r other} hr hother => ?_, fun hlive => h.claim_below hlive, fun {id} hlive => ?_⟩
  · rcases hcases hr with ⟨rfl, rfl⟩ | hr
    · rfl
    · exact h.relation_key hr
  · rcases hcases hr with ⟨rfl, rfl⟩ | hr
    · exact hgrows.contains hsource
    · exact hgrows.contains (h.source_live hr)
  · rcases hcases hr with ⟨rfl, rfl⟩ | hr
    · exact hgrows.contains htarget
    · exact hgrows.contains (h.target_live hr)
  · rcases hcases hr with ⟨rfl, rfl⟩ | hr
    · obtain rfl : target = .relation other := hother
      exact h.relation_below htarget
    · exact h.target_older hr hother
  · change id.index < g.nextRelation + 1
    rcases (contains_pushRelation ..).1 hlive with heq | hlive
    · obtain rfl := Entity.relation.inj heq
      exact Nat.lt_succ_self _
    · exact Nat.lt_succ_of_lt (h.relation_below hlive)

theorem pushFeeders_wellFormed_grows (h : g.WellFormed) {joint : ClaimId} (hjoint : g.contains (.claim joint))
    (metadata : Metadata) {sources : List ClaimId}
    (hsources : ∀ source ∈ sources, g.contains (.claim source)) :
    (g.pushFeeders joint metadata sources).WellFormed ∧ g.Grows (g.pushFeeders joint metadata sources) := by
  induction sources generalizing g with
  | nil => exact ⟨h, .refl g⟩
  | cons source rest ih =>
      obtain ⟨hsource, hrest⟩ := List.forall_mem_cons.1 hsources
      have hgrows := grows_pushRelation h source (.claim joint) none metadata
      obtain ⟨hwf, hmore⟩ := ih (h.pushRelation hsource hjoint none metadata)
        (hgrows.contains hjoint) fun s hs => hgrows.contains (hrest s hs)
      exact ⟨hwf, hgrows.trans hmore⟩

theorem checkSource_eq_ok {id : ClaimId} : g.checkSource id = .ok () ↔ g.contains (.claim id) := by
  rw [checkSource]
  split <;> simp_all

theorem checkTarget_eq_ok {target : Entity} : g.checkTarget target = .ok () ↔ g.contains target := by
  rw [checkTarget]
  split <;> simp_all

theorem forM_checkSource_eq_ok {sources : List ClaimId} :
    sources.forM g.checkSource = .ok () ↔ ∀ source ∈ sources, g.contains (.claim source) := by
  induction sources with
  | nil => simp [pure, Except.pure]
  | cons source rest ih =>
      change (g.checkSource source >>= fun _ => rest.forM g.checkSource) = .ok () ↔ _
      rw [List.forall_mem_cons, ← ih, ← checkSource_eq_ok]
      cases g.checkSource source <;> simp [bind, Except.bind]

theorem relate_eq_ok {source : ClaimId} {target : Entity} {kind : Option RelationKind}
    {metadata : Metadata} {added : RelationId × Graph α} :
    g.relate source target kind metadata = .ok added ↔
      g.contains (.claim source) ∧ g.contains target ∧
        added = g.pushRelation source target kind metadata := by
  rw [relate, ← checkSource_eq_ok, ← checkTarget_eq_ok]
  cases g.checkSource source <;> cases g.checkTarget target <;>
    simp [bind, Except.bind, pure, Except.pure, eq_comm]

variable [Scalar α]

section Claim

variable (g : Graph α) (text : String) (metadata : Metadata)

theorem claim?_addClaim (id : ClaimId) : (g.addClaim text metadata).2.claim? id =
    if id = ⟨g.nextClaim⟩ then some (.create ⟨g.nextClaim⟩ text metadata) else g.claim? id :=
  Table.get?_insert ..

theorem contains_addClaim (entity : Entity) : (g.addClaim text metadata).2.contains entity ↔
    entity = .claim ⟨g.nextClaim⟩ ∨ g.contains entity := by
  cases entity with
  | claim id =>
      rw [contains_claim_iff, contains_claim_iff, claim?_addClaim]
      by_cases h : id = ⟨g.nextClaim⟩ <;> simp [h]
  | relation id => simp [contains, addClaim]

end Claim

theorem grows_addClaim (h : g.WellFormed) (text : String) (metadata : Metadata) :
    g.Grows (g.addClaim text metadata).2 where
  nextClaim := Nat.le_succ _
  nextRelation := Nat.le_refl _
  not_revived {entity} hlive hissued := by
    rcases (contains_addClaim ..).1 hlive with rfl | hlive
    · exact absurd hissued (Nat.lt_irrefl _)
    · exact hlive
  claim? {id c} hc := by
    have hne : id ≠ ⟨g.nextClaim⟩ := by
      rintro rfl
      exact Nat.lt_irrefl _ (h.claim_below (contains_claim_iff.2 ⟨c, hc⟩))
    rw [claim?_addClaim, if_neg hne, hc]
  relation? hr := hr

theorem WellFormed.addClaim (h : g.WellFormed) (text : String) (metadata : Metadata) :
    (g.addClaim text metadata).2.WellFormed where
  claim_key {id c} hc := by
    rw [claim?_addClaim] at hc
    split at hc
    next heq =>
      obtain rfl := Option.some.inj hc
      exact heq.symm
    next => exact h.claim_key hc
  relation_key hr := h.relation_key hr
  source_live hr := (grows_addClaim h text metadata).contains (h.source_live hr)
  target_live hr := (grows_addClaim h text metadata).contains (h.target_live hr)
  target_older hr := h.target_older hr
  claim_below {id} hlive := by
    change id.index < g.nextClaim + 1
    rcases (contains_addClaim ..).1 hlive with heq | hlive
    · obtain rfl := Entity.claim.inj heq
      exact Nat.lt_succ_self _
    · exact Nat.lt_succ_of_lt (h.claim_below hlive)
  relation_below hlive := h.relation_below hlive

/-! ### Adding a relation from any number of claims -/

/-- All that adding a relation can do when it is not refused. -/
theorem addRelation_cases {sources : List ClaimId} {target : Entity} {kind : Option RelationKind}
    {metadata : Metadata} {added : Option RelationId}
    (h : g.addRelation sources target kind metadata = .ok (added, g')) :
    (sources = [] ∧ added = none ∧ g' = g) ∨
    (∃ source, sources = [source] ∧ g.contains (.claim source) ∧ g.contains target ∧
      added = some (g.pushRelation source target kind metadata).1 ∧
      g' = (g.pushRelation source target kind metadata).2) ∨
    (2 ≤ sources.length ∧ (∀ source ∈ sources, g.contains (.claim source)) ∧ g.contains target ∧
      added = some (g.pushJoined sources target kind metadata).1 ∧
      g' = (g.pushJoined sources target kind metadata).2) := by
  match sources with
  | [] =>
      simp only [addRelation, Except.ok.injEq, Prod.mk.injEq] at h
      exact .inl ⟨rfl, h.1.symm, h.2.symm⟩
  | [source] =>
      rw [addRelation, Outcome.bind_eq_ok] at h
      obtain ⟨result, hrelate, hresult⟩ := h
      obtain ⟨hsource, htarget, rfl⟩ := relate_eq_ok.1 hrelate
      obtain ⟨rfl, rfl⟩ := Prod.mk.inj (Except.ok.inj hresult)
      exact .inr (.inl ⟨source, rfl, hsource, htarget, rfl, rfl⟩)
  | first :: second :: rest =>
      rw [addRelation.eq_3 _ _ _ _ _ (by simp) (by simp)] at h
      simp only [Outcome.bind_eq_ok] at h
      obtain ⟨_, hsources, _, htarget, hresult⟩ := h
      obtain ⟨rfl, rfl⟩ := Prod.mk.inj (Except.ok.inj hresult)
      exact .inr (.inr ⟨by simp, forM_checkSource_eq_ok.1 hsources, checkTarget_eq_ok.1 htarget,
        rfl, rfl⟩)

/-- Nothing is refused between live entities. -/
theorem exists_addRelation {sources : List ClaimId} {target : Entity}
    (hsources : ∀ source ∈ sources, g.contains (.claim source)) (htarget : g.contains target)
    (kind : Option RelationKind) (metadata : Metadata) :
    ∃ added g', g.addRelation sources target kind metadata = .ok (added, g') := by
  match sources with
  | [] => exact ⟨_, _, rfl⟩
  | [source] =>
      have hrelate : g.relate source target kind metadata = .ok _ :=
        relate_eq_ok.2 ⟨hsources source (List.mem_singleton_self _), htarget, rfl⟩
      exact ⟨_, _, Outcome.bind_eq_ok.2 ⟨_, hrelate, rfl⟩⟩
  | first :: second :: rest =>
      rw [addRelation.eq_3 _ _ _ _ _ (by simp) (by simp)]
      exact ⟨_, _, Outcome.bind_eq_ok.2 ⟨_, forM_checkSource_eq_ok.2 hsources,
        Outcome.bind_eq_ok.2 ⟨_, checkTarget_eq_ok.2 htarget, rfl⟩⟩⟩

theorem pushJoined_wellFormed_grows (h : g.WellFormed) {sources : List ClaimId} {target : Entity}
    (hsources : ∀ source ∈ sources, g.contains (.claim source)) (htarget : g.contains target)
    (kind : Option RelationKind) (metadata : Metadata) :
    (g.pushJoined sources target kind metadata).2.WellFormed ∧
      g.Grows (g.pushJoined sources target kind metadata).2 := by
  have hclaim := grows_addClaim h joinText .plain
  have hjoint := (contains_addClaim g joinText .plain (.claim ⟨g.nextClaim⟩)).2 (.inl rfl)
  obtain ⟨hwf, hfeeders⟩ := pushFeeders_wellFormed_grows (h.addClaim joinText .plain) hjoint metadata
    fun source hs => hclaim.contains (hsources source hs)
  refine ⟨hwf.pushRelation (hfeeders.contains hjoint)
    (hfeeders.contains (hclaim.contains htarget)) _ _, ?_⟩
  exact hclaim.trans (hfeeders.trans (grows_pushRelation hwf _ _ _ _))

/-- Adding a relation keeps the invariant and all that was there, and the handle handed back is live. -/
theorem addRelation_wellFormed_grows (h : g.WellFormed) {sources : List ClaimId} {target : Entity}
    {kind : Option RelationKind} {metadata : Metadata} {added : Option RelationId}
    (hadd : g.addRelation sources target kind metadata = .ok (added, g')) :
    g'.WellFormed ∧ g.Grows g' ∧ ∀ id, added = some id → g'.contains (.relation id) := by
  rcases addRelation_cases hadd with ⟨-, rfl, rfl⟩ | ⟨source, -, hsource, htarget, rfl, rfl⟩ |
    ⟨-, hsources, htarget, rfl, rfl⟩
  · exact ⟨h, .refl _, fun id hid => by simp at hid⟩
  · refine ⟨h.pushRelation hsource htarget _ _, grows_pushRelation h _ _ _ _, fun id hid => ?_⟩
    obtain rfl := Option.some.inj hid
    exact (contains_pushRelation ..).2 (.inl rfl)
  · obtain ⟨hwf, hgrows⟩ := pushJoined_wellFormed_grows h hsources htarget kind metadata
    refine ⟨hwf, hgrows, fun id hid => ?_⟩
    obtain rfl := Option.some.inj hid
    exact (contains_pushRelation ..).2 (.inl rfl)

end ArgumentDiagram.Graph
