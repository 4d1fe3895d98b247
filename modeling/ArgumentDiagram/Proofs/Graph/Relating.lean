import ArgumentDiagram.Proofs.Graph.Additions
import ArgumentDiagram.Proofs.Graph.Building
import ArgumentDiagram.Proofs.Graph.Reachable

/-!
Adding a relation from any number of claims. It is refused because of the first source that is not live or else
because of the target, and checked as it is before anything is added, it can be carried out in place. Main
statement: what refuses it and what it then adds, and that a refusal calls deleted just what was live once.
-/

open List (Forall₂)

namespace ArgumentDiagram

namespace Graph

section

variable {α : Type} {g g' : Graph α} {entity : Entity}

theorem absence_eq_deleted_iff : g.absence entity = .deleted ↔ g.Issued entity := by
  cases entity <;> simp [absence, Issued]

theorem issued_pushRelation {source : ClaimId} {target : Entity} {kind : Option RelationKind} {metadata : Metadata}
    (h : (g.pushRelation source target kind metadata).2.Issued entity) :
    g.Issued entity ∨ entity = .relation ⟨g.nextRelation⟩ := by
  cases entity with
  | claim id => exact .inl h
  | relation id =>
      rcases Nat.lt_succ_iff_lt_or_eq.1 h with hbelow | heq
      · exact .inl hbelow
      · exact .inr (congrArg (fun index => Entity.relation ⟨index⟩) heq)

theorem Issued.of_counters (h : g'.Issued entity) (hclaim : g'.nextClaim = g.nextClaim)
    (hrelation : g'.nextRelation = g.nextRelation) : g.Issued entity := by
  cases entity with
  | claim id => exact Nat.lt_of_lt_of_eq h hclaim
  | relation id => exact Nat.lt_of_lt_of_eq h hrelation

theorem SameArgument.issued (h : g.SameArgument g') (hissued : g'.Issued entity) : g.Issued entity :=
  hissued.of_counters h.nextClaim h.nextRelation

variable [Scalar α]

theorem issued_addClaim {text : String} {metadata : Metadata} (h : (g.addClaim text metadata).2.Issued entity) :
    g.Issued entity ∨ entity = .claim ⟨g.nextClaim⟩ := by
  cases entity with
  | claim id =>
      rcases Nat.lt_succ_iff_lt_or_eq.1 h with hbelow | heq
      · exact .inl hbelow
      · exact .inr (congrArg (fun index => Entity.claim ⟨index⟩) heq)
  | relation id => exact .inl h

/-- What is given out while a graph is built is live at the end. -/
theorem BuildsTo.issued (h : g.BuildsTo g') (hissued : g'.Issued entity) : g.Issued entity ∨ g'.contains entity := by
  induction h with
  | refl => exact .inl hissued
  | addClaim _ text metadata ih =>
      rw [contains_addClaim]
      rcases issued_addClaim hissued with hbefore | hnew
      · exact (ih hbefore).imp_right .inr
      · exact .inr (.inl hnew)
  | pushRelation _ source target kind metadata ih =>
      rw [contains_pushRelation]
      rcases issued_pushRelation hissued with hbefore | hnew
      · exact (ih hbefore).imp_right .inr
      · exact .inr (.inl hnew)

/-- An operation gives out handles of what it leaves live, and of nothing else. -/
theorem issued_perform (h : g.WellFormed) {operation : Operation α}
    (hissued : (g.perform operation).2.Issued entity) :
    g.Issued entity ∨ (g.perform operation).2.contains entity := by
  cases operation with
  | addClaim text metadata => exact (BuildsTo.refl.addClaim text metadata).issued hissued
  | addRelation sources target kind metadata =>
      simp only [perform] at hissued ⊢
      split at hissued
      next hadd => exact (buildsTo_addRelation hadd).issued hissued
      next => exact .inl hissued
  | delete target =>
      have hremoves := removes_delete h target
      exact .inl (hissued.of_counters hremoves.nextClaim hremoves.nextRelation)
  | measure sizeOf => exact .inl ((sameArgument_measureClaims g sizeOf).issued hissued)
  | forgetSizes => exact .inl ((sameArgument_forgetSizes g).issued hissued)
  | updateClaim id f => exact .inl ((sameArgument_updateClaim g id f).issued hissued)
  | updateAll f => exact .inl ((sameArgument_updateAll g f).issued hissued)
  | applyLayout layout => exact .inl ((sameArgument_moveClaims g layout.outline).issued hissued)
  | loadPayload payload =>
      simp only [perform] at hissued ⊢
      split at hissued
      next hload => exact (Payload.buildsTo_load hload).issued hissued
      next => exact .inl hissued
  | loadScript script =>
      simp only [perform] at hissued ⊢
      split at hissued
      next hload => exact (Script.buildsTo_load hload).issued hissued
      next => exact .inl hissued

/-- The handles that were given out are those that were live at some point of the run. -/
theorem issued_after_iff {operations : List (Operation α)} : (empty.after operations).Issued entity ↔
    ∃ start, start <+: operations ∧ (empty.after start).contains entity := by
  constructor
  · intro hissued
    induction operations using List.reverseRecOn with
    | nil =>
        have hnone : ¬(empty : Graph α).Issued entity := by
          cases entity <;> exact Nat.not_lt_zero _
        exact absurd hissued hnone
    | append_singleton operations operation ih =>
        obtain ⟨hwf, -⟩ := after_wellFormed_later wellFormed_empty operations
        rw [after_append] at hissued
        rcases issued_perform hwf hissued with hbefore | hlive
        · obtain ⟨start, hstart, hlive⟩ := ih hbefore
          exact ⟨start, hstart.trans (List.prefix_append ..), hlive⟩
        · refine ⟨_, List.prefix_refl _, ?_⟩
          rw [after_append]
          exact hlive
  · rintro ⟨start, ⟨rest, rfl⟩, hlive⟩
    obtain ⟨hstart, -⟩ := after_wellFormed_later wellFormed_empty start
    rw [after_append]
    exact (after_wellFormed_later hstart rest).2.issued (hstart.issued hlive)

end

section

variable {α : Type} [Scalar α] {g : Graph α} {sources : List ClaimId} {target : Entity} {e : GraphError}

/-- Why a relation from some claims to a target is refused: its first source that is not live, or its target. -/
inductive RelationRefused (g : Graph α) (sources : List ClaimId) (target : Entity) : GraphError → Prop
  | source {first last : List ClaimId} {id : ClaimId} : sources = first ++ id :: last →
      (∀ other ∈ first, g.contains (.claim other)) → g.contains (.claim id) = false →
      RelationRefused g sources target (.invalidSource (g.absence (.claim id)) id)
  | target : (∀ source ∈ sources, g.contains (.claim source)) → g.contains target = false →
      RelationRefused g sources target (.invalidTarget (g.absence target) target)

omit [Scalar α] in
theorem checkSource_eq_error {id : ClaimId} : g.checkSource id = .error e ↔
    g.contains (.claim id) = false ∧ .invalidSource (g.absence (.claim id)) id = e := by
  rw [checkSource]
  split <;> simp_all

omit [Scalar α] in
theorem checkTarget_eq_error : g.checkTarget target = .error e ↔
    g.contains target = false ∧ .invalidTarget (g.absence target) target = e := by
  rw [checkTarget]
  split <;> simp_all

omit [Scalar α] in
/-- The checks go through the sources, and then come to the target. -/
theorem relationRefused_iff : g.RelationRefused sources target e ↔
    sources.forM g.checkSource = .error e ∨
      sources.forM g.checkSource = .ok () ∧ g.checkTarget target = .error e := by
  rw [forM_checkSource_eq_ok, checkTarget_eq_error, Outcome.forM_eq_error]
  simp only [checkSource_eq_ok, checkSource_eq_error]
  constructor
  · rintro (⟨hsplit, hfirst, hdead⟩ | ⟨hsources, hdead⟩)
    · exact .inl ⟨_, _, _, hsplit, hfirst, hdead, rfl⟩
    · exact .inr ⟨hsources, hdead, rfl⟩
  · rintro (⟨first, id, last, hsplit, hfirst, hdead, rfl⟩ | ⟨hsources, hdead, rfl⟩)
    · exact .source hsplit hfirst hdead
    · exact .target hsources hdead

/-- What is added once all handles are checked. -/
def pushSources (g : Graph α) (sources : List ClaimId) (target : Entity) (kind : Option RelationKind)
    (metadata : Metadata) : Option RelationId × Graph α :=
  match sources with
  | [] => (none, g)
  | [source] =>
    let (id, g) := g.pushRelation source target kind metadata
    (some id, g)
  | sources =>
    let (id, g) := g.pushJoined sources target kind metadata
    (some id, g)

/-- All checks are made on the graph as it is. -/
theorem addRelation_eq_checked (hne : sources ≠ []) (target : Entity) (kind : Option RelationKind)
    (metadata : Metadata) : g.addRelation sources target kind metadata =
      (sources.forM g.checkSource >>= fun _ => g.checkTarget target >>= fun _ =>
        pure (g.pushSources sources target kind metadata)) := by
  match sources with
  | [source] =>
      change (g.relate source target kind metadata >>= fun added => pure (some added.1, added.2)) =
        ((g.checkSource source >>= fun _ => pure ()) >>= fun _ => _)
      rw [relate]
      cases g.checkSource source <;> cases g.checkTarget target <;> rfl
  | first :: second :: rest =>
      rw [addRelation.eq_3 _ _ _ _ _ (by simp) (by simp)]
      rfl

theorem addRelation_eq_error (hne : sources ≠ []) {kind : Option RelationKind} {metadata : Metadata} :
    g.addRelation sources target kind metadata = .error e ↔ g.RelationRefused sources target e := by
  rw [relationRefused_iff]
  have hchecked : ∀ {β : Type} (result : β),
      (sources.forM g.checkSource >>= fun _ => g.checkTarget target >>= fun _ => pure result) = .error e ↔
        sources.forM g.checkSource = .error e ∨
          sources.forM g.checkSource = .ok () ∧ g.checkTarget target = .error e := by
    intro β result
    cases sources.forM g.checkSource <;> cases g.checkTarget target <;>
      simp [bind, Except.bind, pure, Except.pure]
  rw [← hchecked, addRelation_eq_checked hne]

end

end Graph

/-! ### In place -/

/-- A change of a graph in place, which can be refused on the way. -/
abbrev Edit (α β : Type) := ExceptT GraphError (StateM (Graph α)) β

namespace Edit

variable {α β γ : Type} {g : Graph α}

/-- What comes of a change, and the graph that it leaves, refused or not. -/
def on (edit : Edit α β) (g : Graph α) : Except GraphError β × Graph α := edit.run.run g

def check (test : Graph α → Except GraphError Unit) : Edit α Unit := do
  MonadExcept.ofExcept (test (← get))

def make (change : Graph α → β × Graph α) : Edit α β := modifyGet change

theorem on_bind (edit : Edit α β) (next : β → Edit α γ) (g : Graph α) : (edit >>= next).on g =
    match edit.on g with
    | (.ok b, g') => (next b).on g'
    | (.error e, g') => (.error e, g') := by
  change (ExceptT.bindCont next (edit.on g).1).run (edit.on g).2 = _
  rcases edit.on g with ⟨e | b, g'⟩
  · rfl
  · rfl

theorem on_check (test : Graph α → Except GraphError Unit) (g : Graph α) : (check test).on g = (test g, g) := by
  change on (MonadExcept.ofExcept (test g)) g = _
  cases test g <;> rfl

theorem on_make (change : Graph α → β × Graph α) (g : Graph α) :
    (make change).on g = (.ok (change g).1, (change g).2) := rfl

theorem on_checkSources (sources : List ClaimId) (g : Graph α) :
    (sources.forM fun source => check (α := α) (·.checkSource source)).on g = (sources.forM g.checkSource, g) := by
  induction sources with
  | nil => rfl
  | cons source rest ih =>
      change (check (·.checkSource source) >>= fun _ => rest.forM fun source => check (·.checkSource source)).on g =
        (g.checkSource source >>= fun _ => rest.forM g.checkSource, g)
      rw [on_bind, on_check]
      cases g.checkSource source with
      | error e => rfl
      | ok _ => exact ih

theorem on_pushFeeders (joint : ClaimId) (metadata : Metadata) (sources : List ClaimId) (g : Graph α) :
    (sources.forM fun source => discard (make (α := α) (·.pushRelation source (.claim joint) none metadata))).on g =
      (.ok (), g.pushFeeders joint metadata sources) := by
  induction sources generalizing g with
  | nil => rfl
  | cons source rest ih =>
      exact ih (g.pushRelation source (.claim joint) none metadata).2

variable [Scalar α]

/-- Adds a relation in place, one entity after the other. -/
def addRelation (sources : List ClaimId) (target : Entity) (kind : Option RelationKind) (metadata : Metadata) :
    Edit α (Option RelationId) :=
  match sources with
  | [] => pure none
  | [source] => do
    check (·.checkSource source)
    check (·.checkTarget target)
    let id ← make (·.pushRelation source target kind metadata)
    pure (some id)
  | sources => do
    sources.forM fun source => check (·.checkSource source)
    check (·.checkTarget target)
    let joint ← make (·.addClaim Graph.joinText .plain)
    sources.forM fun source => discard (make (·.pushRelation source (.claim joint) none metadata))
    let id ← make (·.pushRelation joint target kind { metadata with merged := true })
    pure (some id)

/-- Nothing is left behind in place by what is refused. -/
theorem on_addRelation (sources : List ClaimId) (target : Entity) (kind : Option RelationKind)
    (metadata : Metadata) (g : Graph α) : (addRelation sources target kind metadata).on g =
      match g.addRelation sources target kind metadata with
      | .ok (added, g') => (.ok added, g')
      | .error e => (.error e, g) := by
  match sources with
  | [] => rfl
  | [source] =>
      rw [addRelation, Graph.addRelation, Graph.relate]
      simp only [on_bind, on_check, on_make]
      cases g.checkSource source with
      | error e => rfl
      | ok _ =>
          dsimp only
          cases g.checkTarget target <;> rfl
  | first :: second :: rest =>
      rw [addRelation, Graph.addRelation_eq_checked (List.cons_ne_nil first _)]
      · simp only [on_bind, on_checkSources, on_check, on_make, on_pushFeeders]
        cases (first :: second :: rest).forM g.checkSource with
        | error e => rfl
        | ok _ =>
            dsimp only
            cases g.checkTarget target <;> rfl
      · simp
      · simp

end Edit

namespace Graph

variable {α : Type} [Scalar α] {g g' : Graph α} {sources : List ClaimId} {target : Entity}
  {kind : Option RelationKind} {metadata : Metadata}

/-- What joining sources makes of a graph: a claim that joins them, neutral relations into it in the order of the
sources, and the relation from it. -/
structure JoinedInto (g : Graph α) (sources : List ClaimId) (target : Entity) (kind : Option RelationKind)
    (metadata : Metadata) (joint : ClaimId) (feeders : List RelationId) (added : RelationId) (g' : Graph α) :
    Prop where
  claimsSince : g.claimsSince g' = [joint]
  relationsSince : g.relationsSince g' = feeders ++ [added]
  revision : g'.revision = g.revision + sources.length + 2
  claim_joint : g'.claim? joint = some (.create joint joinText .plain)
  relation_feeders : Forall₂ (fun id source => g'.relation? id = some ⟨id, source, .claim joint, none, metadata⟩)
    feeders sources
  relation_added : g'.relation? added = some ⟨added, joint, target, kind, { metadata with merged := true }⟩
  other_claims : ∀ id, id ≠ joint → g'.claim? id = g.claim? id
  other_relations : ∀ id, id ∉ feeders → id ≠ added → g'.relation? id = g.relation? id
  joint_not_root : joint ∉ g'.rootClaims
  sources_not_roots : ∀ source ∈ sources, source ∉ g'.rootClaims

omit [Scalar α] in
theorem revision_pushFeeders (g : Graph α) (joint : ClaimId) (metadata : Metadata) (sources : List ClaimId) :
    (g.pushFeeders joint metadata sources).revision = g.revision + sources.length := by
  induction sources generalizing g with
  | nil => rfl
  | cons source rest ih =>
      calc (g.pushFeeders joint metadata (source :: rest)).revision = g.revision + 1 + rest.length :=
            ih (g.pushRelation source (.claim joint) none metadata).2
        _ = g.revision + (source :: rest).length := by rw [List.length_cons, Nat.add_assoc, Nat.add_comm 1]

theorem revision_pushJoined (g : Graph α) (sources : List ClaimId) (target : Entity) (kind : Option RelationKind)
    (metadata : Metadata) :
    (g.pushJoined sources target kind metadata).2.revision = g.revision + sources.length + 2 := by
  have hfeeders := revision_pushFeeders (g.addClaim joinText .plain).2 ⟨g.nextClaim⟩ metadata sources
  have hfirst : (g.addClaim joinText .plain).2.revision = g.revision + 1 := rfl
  calc (g.pushJoined sources target kind metadata).2.revision =
        ((g.addClaim joinText .plain).2.pushFeeders ⟨g.nextClaim⟩ metadata sources).revision + 1 := rfl
    _ = g.revision + sources.length + 2 := by
        rw [hfeeders, hfirst]
        omega

omit [Scalar α] in
/-- The source of a relation is no root. -/
theorem source_notMem_rootClaims {id : RelationId} {r : Relation} (hr : g.relation? id = some r) :
    r.source ∉ g.rootClaims := by
  intro hmem
  exact (mem_rootClaims_iff.1 hmem).2 id r hr rfl

theorem joinedInto_pushJoined (h : g.WellFormed) (hsources : ∀ source ∈ sources, g.contains (.claim source))
    (htarget : g.contains target) (kind : Option RelationKind) (metadata : Metadata) :
    ∃ joint feeders, g.JoinedInto sources target kind metadata joint feeders
      (g.pushJoined sources target kind metadata).1 (g.pushJoined sources target kind metadata).2 := by
  obtain ⟨hwf, hgrows⟩ := pushJoined_wellFormed_grows h hsources htarget kind metadata
  obtain ⟨joint, feeders, hclaims, hrelations, hjoint, hfeeders, hadded⟩ :=
    added_pushJoined h hsources kind metadata (rfl : _ = g.pushJoined sources target kind metadata)
  refine ⟨joint, feeders, hclaims, hrelations, revision_pushJoined .., hjoint, hfeeders, hadded, ?_, ?_,
    source_notMem_rootClaims hadded, ?_⟩
  · intro id hid
    exact hgrows.claim?_of_notMem hwf (by rw [hclaims, List.mem_singleton]; exact hid)
  · intro id hid hne
    refine hgrows.relation?_of_notMem hwf ?_
    rw [hrelations, List.mem_append, List.mem_singleton]
    exact not_or.2 ⟨hid, hne⟩
  · intro source hmem
    obtain ⟨id, -, hr⟩ := Outcome.exists_of_forall₂ hfeeders.flip hmem
    exact source_notMem_rootClaims hr

theorem addRelation_of_live (hlength : 2 ≤ sources.length)
    (hsources : ∀ source ∈ sources, g.contains (.claim source)) (htarget : g.contains target) :
    g.addRelation sources target kind metadata = .ok (some (g.pushJoined sources target kind metadata).1,
      (g.pushJoined sources target kind metadata).2) := by
  obtain ⟨added, g', hadd⟩ := exists_addRelation hsources htarget kind metadata
  rcases addRelation_cases hadd with ⟨rfl, -, -⟩ | ⟨source, rfl, -⟩ | ⟨-, -, -, rfl, rfl⟩
  · simp at hlength
  · simp at hlength
  · exact hadd

/-- Without sources a relation is nothing at all, and from a list of one source it is the relation from that one.
Otherwise it is refused exactly if a source or else the target is not live, for the first source that is not; a
handle is called deleted if it was live at some point of the run, and unknown if not; and a refusal leaves the graph
as it is, also where relations are added in place. From several live sources it adds a claim that joins them,
neutral relations into it, and the relation from it, and nothing else changes. -/
theorem addRelation_verdict (operations : List (Operation α)) (target : Entity) (kind : Option RelationKind)
    (metadata : Metadata) :
    let g : Graph α := empty.after operations
    g.addRelation [] target kind metadata = .ok (none, g) ∧
    (∀ source, g.addRelation [source] target kind metadata =
      (g.relate source target kind metadata).map fun added => (some added.1, added.2)) ∧
    (∀ sources e, sources ≠ [] →
      (g.addRelation sources target kind metadata = .error e ↔ g.RelationRefused sources target e)) ∧
    (∀ entity, g.absence entity = .deleted ↔ ∃ start, start <+: operations ∧ (empty.after start).contains entity) ∧
    (∀ sources, (Edit.addRelation sources target kind metadata).on g =
      match g.addRelation sources target kind metadata with
      | .ok (added, g') => (.ok added, g')
      | .error e => (.error e, g)) ∧
    ∀ sources, 2 ≤ sources.length → (∀ source ∈ sources, g.contains (.claim source)) → g.contains target →
      ∃ joint feeders added g', g.addRelation sources target kind metadata = .ok (some added, g') ∧
        g.JoinedInto sources target kind metadata joint feeders added g' := by
  intro g
  obtain ⟨hwf, -⟩ := after_wellFormed_later wellFormed_empty operations
  refine ⟨rfl, fun source => ?_, fun sources e hne => addRelation_eq_error hne,
    fun entity => absence_eq_deleted_iff.trans issued_after_iff,
    fun sources => Edit.on_addRelation sources target kind metadata g, fun sources hlength hsources htarget => ?_⟩
  · rw [addRelation]
    cases g.relate source target kind metadata <;> rfl
  · obtain ⟨joint, feeders, hjoined⟩ := joinedInto_pushJoined hwf hsources htarget kind metadata
    exact ⟨joint, feeders, _, _, addRelation_of_live hlength hsources htarget, hjoined⟩

/-- A list with a deleted and an unknown claim, and one that names a live claim twice. -/
theorem addRelation_verdict_after_delete :
    let operations : List (Operation Float32) := [.addClaim "a" .plain, .addClaim "b" .plain, .addClaim "c" .plain,
      .delete (.claim ⟨1⟩)]
    let g := empty.after operations
    g.addRelation [⟨0⟩, ⟨1⟩, ⟨7⟩] (.relation ⟨3⟩) none .plain = .error (.invalidSource .deleted ⟨1⟩) ∧
      ∃ joint feeders added g',
        g.addRelation [⟨0⟩, ⟨2⟩, ⟨0⟩] (.claim ⟨2⟩) (some .attack) .plain = .ok (some added, g') ∧
        g.JoinedInto [⟨0⟩, ⟨2⟩, ⟨0⟩] (.claim ⟨2⟩) (some .attack) .plain joint feeders added g' := by
  intro operations g
  obtain ⟨-, -, hrefused, habsence, -, -⟩ := addRelation_verdict operations (.relation ⟨3⟩) none .plain
  obtain ⟨-, -, -, -, -, hjoined⟩ := addRelation_verdict operations (.claim ⟨2⟩) (some .attack) .plain
  have hdeleted : g.absence (.claim ⟨1⟩) = .deleted :=
    (habsence (.claim ⟨1⟩)).2 ⟨[.addClaim "a" .plain, .addClaim "b" .plain], ⟨_, rfl⟩, by decide +kernel⟩
  constructor
  · rw [← hdeleted]
    have hfirst : ∀ other ∈ [(⟨0⟩ : ClaimId)], g.contains (.claim other) := by decide +kernel
    exact (hrefused [⟨0⟩, ⟨1⟩, ⟨7⟩] _ (by simp)).2 (.source rfl hfirst (by decide +kernel))
  · exact hjoined [⟨0⟩, ⟨2⟩, ⟨0⟩] (by decide) (by decide +kernel) (by decide +kernel)

end Graph

end ArgumentDiagram
