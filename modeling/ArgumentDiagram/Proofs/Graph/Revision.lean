import ArgumentDiagram.Proofs.Graph.Building
import ArgumentDiagram.Proofs.Graph.Reachable

/-!
Revisions. Each operation leaves a graph as it is or raises its revision, whether it adds a single entity or
loads a whole document. Main statement: so two states of a run with the same revision are the same, and what
is refused or finds nothing to do leaves no trace.
-/

namespace ArgumentDiagram

variable {α : Type}

/-- What can be done to a graph from outside. Besides the operations, claims can be worked on themselves, down
to what they say. -/
inductive Change (α : Type) where
  | operation (operation : Operation α)
  | editClaim (id : ClaimId) (edit : Claim α → Claim α)
  | editClaims (edit : Claim α → Claim α)

namespace Graph

variable {g g' g'' : Graph α}

/-- Two states of a graph that hold the same and have given out the same handles. -/
structure SameContent (g g' : Graph α) : Prop where
  claims : g'.claims = g.claims
  relations : g'.relations = g.relations
  nextClaim : g'.nextClaim = g.nextClaim
  nextRelation : g'.nextRelation = g.nextRelation

/-- A later state of a graph is the same one, or has a higher revision. -/
def Advances (g g' : Graph α) : Prop := g' = g ∨ g.revision < g'.revision

namespace Advances

theorem refl (g : Graph α) : g.Advances g := .inl rfl

theorem le (h : g.Advances g') : g.revision ≤ g'.revision := by
  rcases h with rfl | h
  · exact Nat.le_refl _
  · exact Nat.le_of_lt h

theorem trans (h : g.Advances g') (h' : g'.Advances g'') : g.Advances g'' := by
  rcases h with rfl | h
  · exact h'
  · exact .inr (Nat.lt_of_lt_of_le h h'.le)

theorem eq_of_revision (h : g.Advances g') (hrevision : g'.revision = g.revision) : g' = g := by
  rcases h with rfl | h
  · rfl
  · exact absurd hrevision (Nat.ne_of_gt h)

theorem lt_of_not_sameContent (h : g.Advances g') (hcontent : ¬g.SameContent g') :
    g.revision < g'.revision := by
  rcases h with rfl | h
  · exact absurd ⟨rfl, rfl, rfl, rfl⟩ hcontent
  · exact h

end Advances

theorem updateClaim_eq_editClaim (g : Graph α) (id : ClaimId) (f : Placement α → Placement α) :
    g.updateClaim id f = g.editClaim id (Claim.mapPlacement f) := rfl

theorem updateAll_eq_editClaims (g : Graph α) (f : Claim α → Placement α) :
    g.updateAll f = g.editClaims fun c => { c with placement := f c } := rfl

theorem advances_editClaim (g : Graph α) (id : ClaimId) (edit : Claim α → Claim α) :
    g.Advances (g.editClaim id edit) := by
  rw [editClaim]
  split
  · exact .inr (Nat.lt_succ_self _)
  · exact .refl g

theorem advances_editClaims (g : Graph α) (edit : Claim α → Claim α) : g.Advances (g.editClaims edit) :=
  .inr (Nat.lt_succ_self _)

theorem advances_updateWhere (g : Graph α) (which : Claim α → Bool) (f : Claim α → Claim α) :
    g.Advances (g.updateWhere which f).2 := by
  rw [updateWhere]
  split
  · exact .refl g
  · exact .inr (Nat.lt_succ_self _)

theorem advances_delete (g : Graph α) (entity : Entity) : g.Advances (g.delete entity).2 := by
  rw [delete.eq_def]
  split
  · cases entity <;> exact .inr (Nat.lt_succ_self _)
  · exact .refl g

theorem advances_moveClaims (g : Graph α) (outline : Outline α) : g.Advances (Layout.moveClaims outline g) := by
  induction outline generalizing g with
  | nil => exact .refl g
  | cons placed rest ih =>
      rw [Layout.moveClaims, List.foldl_cons]
      refine .trans ?_ (ih _)
      split
      · rw [updateClaim_eq_editClaim]
        exact advances_editClaim ..
      · exact .refl g

variable [Scalar α]

theorem BuildsTo.advances (h : g.BuildsTo g') : g.Advances g' := by
  induction h with
  | refl => exact .refl g
  | addClaim _ text metadata ih => exact ih.trans (.inr (Nat.lt_succ_self _))
  | pushRelation _ source target kind metadata ih => exact ih.trans (.inr (Nat.lt_succ_self _))

theorem advances_perform (g : Graph α) (operation : Operation α) : g.Advances (g.perform operation).2 := by
  cases operation with
  | addClaim text metadata => exact (BuildsTo.refl.addClaim text metadata).advances
  | addRelation sources target kind metadata =>
      rw [perform]
      split
      next hadd => exact (buildsTo_addRelation hadd).advances
      next => exact .refl g
  | delete entity => exact advances_delete ..
  | measure sizeOf => exact advances_updateWhere ..
  | forgetSizes => exact advances_updateWhere ..
  | updateClaim id f =>
      rw [perform, updateClaim_eq_editClaim]
      exact advances_editClaim ..
  | updateAll f =>
      rw [perform, updateAll_eq_editClaims]
      exact advances_editClaims ..
  | applyLayout layout => exact advances_moveClaims ..
  | loadPayload payload =>
      rw [perform]
      split
      next hload => exact (Payload.buildsTo_load hload).advances
      next => exact .refl g
  | loadScript script =>
      rw [perform]
      split
      next hload => exact (Script.buildsTo_load hload).advances
      next => exact .refl g

/-! ### Runs -/

/-- The graph that a change leaves. -/
def undergo (g : Graph α) : Change α → Graph α
  | .operation operation => (g.perform operation).2
  | .editClaim id edit => g.editClaim id edit
  | .editClaims edit => g.editClaims edit

/-- The graph after some changes, one after the other. -/
def through (g : Graph α) (changes : List (Change α)) : Graph α := changes.foldl undergo g

theorem through_append (g : Graph α) (first second : List (Change α)) :
    g.through (first ++ second) = (g.through first).through second := List.foldl_append

theorem advances_undergo (g : Graph α) (change : Change α) : g.Advances (g.undergo change) := by
  cases change with
  | operation operation => exact g.advances_perform operation
  | editClaim id edit => exact g.advances_editClaim id edit
  | editClaims edit => exact g.advances_editClaims edit

theorem advances_through (g : Graph α) (changes : List (Change α)) : g.Advances (g.through changes) := by
  induction changes generalizing g with
  | nil => exact .refl g
  | cons change rest ih => exact (g.advances_undergo change).trans (ih _)

/-- What a graph refuses, and what finds nothing to do. -/
def Ignores (g : Graph α) : Change α → Prop
  | .operation (.addRelation sources target _ _) =>
    sources = [] ∨ ¬((∀ source ∈ sources, g.contains (.claim source)) ∧ g.contains target)
  | .operation (.delete entity) => ¬g.contains entity
  | .operation (.measure _) => ∀ id c, g.claim? id = some c → c.isMeasured
  | .operation .forgetSizes => ∀ id c, g.claim? id = some c → ¬c.isMeasured
  | .operation (.updateClaim id _) => ¬g.contains (.claim id)
  | .operation (.loadPayload payload) => ∃ e, payload.load g = .error e
  | .operation (.loadScript script) => ∃ e, script.load g = .error e
  | .editClaim id _ => ¬g.contains (.claim id)
  | _ => False

/-- Whatever is handed to a relation is live, if the relation is added at all. -/
theorem live_of_addRelation {sources : List ClaimId} {target : Entity} {kind : Option RelationKind}
    {metadata : Metadata} {added : Option RelationId} {g' : Graph α} (hsources : sources ≠ [])
    (h : g.addRelation sources target kind metadata = .ok (added, g')) :
    (∀ source ∈ sources, g.contains (.claim source)) ∧ g.contains target := by
  rcases addRelation_cases h with ⟨hnil, -⟩ | ⟨source, rfl, hsource, htarget, -⟩ | ⟨-, hlive, htarget, -⟩
  · exact absurd hnil hsources
  · exact ⟨by simpa using hsource, htarget⟩
  · exact ⟨hlive, htarget⟩

omit [Scalar α] in
theorem updateWhere_of_none {which : Claim α → Bool} (h : ∀ id c, g.claim? id = some c → ¬which c)
    (f : Claim α → Claim α) : (g.updateWhere which f).2 = g := by
  have hnone : g.claims.values.countP which = 0 := by
    refine List.countP_eq_zero.2 fun c hmem => ?_
    obtain ⟨id, hc⟩ := Table.mem_values_iff.1 hmem
    exact h id c hc
  rw [updateWhere, if_pos hnone]

theorem undergo_of_ignores {change : Change α} (h : g.Ignores change) : g.undergo change = g := by
  match change, h with
  | .operation (.addRelation sources target kind metadata), h =>
      rw [undergo, perform]
      split
      next hadd =>
        rcases h with rfl | hdead
        · exact (Prod.mk.inj (Except.ok.inj hadd)).2.symm
        · by_cases hsources : sources = []
          · subst hsources
            exact (Prod.mk.inj (Except.ok.inj hadd)).2.symm
          · exact absurd (live_of_addRelation hsources hadd) hdead
      next => rfl
  | .operation (.delete entity), hdead => rw [undergo, perform, delete.eq_def, if_neg hdead]
  | .operation (.measure sizeOf), hall =>
      exact updateWhere_of_none (fun id c hc => by simp [hall id c hc]) _
  | .operation .forgetSizes, hnone => exact updateWhere_of_none hnone _
  | .operation (.updateClaim id f), hdead => exact if_neg hdead
  | .operation (.loadPayload payload), ⟨e, hload⟩ => rw [undergo, perform, hload]
  | .operation (.loadScript script), ⟨e, hload⟩ => rw [undergo, perform, hload]
  | .editClaim id edit, hdead => exact if_neg hdead

/-- Along a run of changes the revision never falls, and whatever changes a claim, a relation or a counter
raises it. What is refused or finds nothing to do leaves the graph and its revision as they are. So states of
the run with the same revision are the same. -/
theorem revision_tells_states_apart (start : Graph α) (changes : List (Change α)) :
    (∀ earlier later, earlier <+: later → later <+: changes →
      (start.through earlier).revision ≤ (start.through later).revision) ∧
    (∀ earlier change, earlier ++ [change] <+: changes →
      ¬(start.through earlier).SameContent (start.through (earlier ++ [change])) →
      (start.through earlier).revision < (start.through (earlier ++ [change])).revision) ∧
    (∀ earlier change, earlier ++ [change] <+: changes → (start.through earlier).Ignores change →
      start.through (earlier ++ [change]) = start.through earlier) ∧
    ∀ one other, one <+: changes → other <+: changes →
      (start.through one).revision = (start.through other).revision →
      start.through one = start.through other := by
  have hlater : ∀ {earlier later : List (Change α)}, earlier <+: later →
      (start.through earlier).Advances (start.through later) := by
    rintro earlier _ ⟨between, rfl⟩
    rw [through_append]
    exact advances_through ..
  refine ⟨fun earlier later h _ => (hlater h).le, fun earlier change _ hcontent => ?_,
    fun earlier change _ hignores => ?_, fun one other hone hother hrevision => ?_⟩
  · exact (hlater (List.prefix_append ..)).lt_of_not_sameContent hcontent
  · rw [through_append]
    exact undergo_of_ignores hignores
  · rcases List.prefix_or_prefix_of_prefix hone hother with h | h
    · exact ((hlater h).eq_of_revision hrevision.symm).symm
    · exact (hlater h).eq_of_revision hrevision

/-- A relation to something that never was is refused between two claims. -/
theorem revision_tells_states_apart_of_refused :
    let start : List (Change Float32) := [.operation (.addClaim "a" .plain)]
    let refused : Change Float32 := .operation (.addRelation [⟨0⟩] (.relation ⟨7⟩) none .plain)
    let changes := start ++ [refused] ++ [.operation (.addClaim "b" .plain)]
    (empty.through start).Ignores refused ∧
      empty.through (start ++ [refused]) = empty.through start ∧
      (empty.through start).revision < (empty.through changes).revision := by
  intro start refused changes
  have hrun := revision_tells_states_apart empty changes
  have hignored : (empty.through start).Ignores refused := by
    refine .inr fun h => ?_
    have htarget : (empty.through start).contains (.relation ⟨7⟩) = true := h.2
    exact absurd htarget (by decide +kernel)
  have hgrown : ¬(empty.through (start ++ [refused])).SameContent (empty.through changes) :=
    fun h => absurd h.nextClaim (by decide +kernel)
  have hsame := hrun.2.2.1 start refused (List.prefix_append ..) hignored
  refine ⟨hignored, hsame, ?_⟩
  rw [← hsame]
  exact hrun.2.1 (start ++ [refused]) _ (List.prefix_refl _) hgrown

end Graph

end ArgumentDiagram
