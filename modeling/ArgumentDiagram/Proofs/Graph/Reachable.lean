import ArgumentDiagram.Layout.Build
import ArgumentDiagram.Proofs.Graph.Feeds
import ArgumentDiagram.Proofs.Graph.Loading

/-!
Runs of operations on graphs, from the empty one. Main statement: whatever is done, the invariant holds, and
a handle that was given out and then deleted never stands for anything again.
-/

namespace ArgumentDiagram

/-- What can be done to a graph. -/
inductive Operation (α : Type) where
  | addClaim (text : String) (metadata : Metadata)
  | addRelation (sources : List ClaimId) (target : Entity) (kind : Option RelationKind)
      (metadata : Metadata)
  | delete (entity : Entity)
  | measure (sizeOf : List String → Size α)
  | forgetSizes
  | updateClaim (id : ClaimId) (f : Placement α → Placement α)
  | updateAll (f : Claim α → Placement α)
  | applyLayout (layout : Layout α)
  | loadPayload (payload : Payload)
  | loadScript (script : Script)

namespace Graph

variable {α : Type} {g : Graph α}

theorem sameArgument_moveClaims (g : Graph α) (outline : Outline α) :
    g.SameArgument (Layout.moveClaims outline g) := by
  induction outline generalizing g with
  | nil => exact .refl g
  | cons placed rest ih =>
      rw [Layout.moveClaims, List.foldl_cons]
      refine .trans ?_ (ih _)
      split
      · exact sameArgument_updateClaim ..
      · exact .refl g

variable [Scalar α]

/-- The handles that an operation hands back, and the graph that it leaves. What is refused hands back
nothing and leaves the graph as it is. -/
def perform (g : Graph α) : Operation α → List Entity × Graph α
  | .addClaim text metadata =>
    let (id, g) := g.addClaim text metadata
    ([.claim id], g)
  | .addRelation sources target kind metadata =>
    match g.addRelation sources target kind metadata with
    | .ok (added, g) => ((added.map .relation).toList, g)
    | .error _ => ([], g)
  | .delete entity =>
    let (deleted, g) := g.delete entity
    (deleted.claims.map .claim ++ deleted.relations.map .relation, g)
  | .measure sizeOf => ([], (g.measureClaims sizeOf).2)
  | .forgetSizes => ([], g.forgetSizes.2)
  | .updateClaim id f => ([], g.updateClaim id f)
  | .updateAll f => ([], g.updateAll f)
  | .applyLayout layout => ([], layout.apply g)
  | .loadPayload payload =>
    match payload.load g with
    | .ok (loaded, g) =>
      (loaded.claims.values.map .claim ++ loaded.relations.values.map .relation, g)
    | .error _ => ([], g)
  | .loadScript script =>
    match script.load g with
    | .ok (vars, g) => (vars.values, g)
    | .error _ => ([], g)

/-- The graph after some operations, one after the other. -/
def after (g : Graph α) (operations : List (Operation α)) : Graph α :=
  operations.foldl (fun g operation => (g.perform operation).2) g

/-- All handles that are handed back during a run. -/
def handed (g : Graph α) : List (Operation α) → List Entity
  | [] => []
  | operation :: rest => (g.perform operation).1 ++ (g.perform operation).2.handed rest

/-- The graphs that operations make of the empty one. -/
def Reachable (g : Graph α) : Prop := ∃ operations, empty.after operations = g

theorem perform_wellFormed_later (h : g.WellFormed) (operation : Operation α) :
    (g.perform operation).2.WellFormed ∧ g.Later (g.perform operation).2 := by
  cases operation with
  | addClaim text metadata => exact ⟨h.addClaim text metadata, (grows_addClaim h text metadata).toLater⟩
  | addRelation sources target kind metadata =>
      rw [perform]
      split
      next added g' hadd =>
        obtain ⟨hwf, hgrows, -⟩ := addRelation_wellFormed_grows h hadd
        exact ⟨hwf, hgrows.toLater⟩
      next => exact ⟨h, .refl g⟩
  | delete entity => exact ⟨(removes_delete h entity).wellFormed h, (removes_delete h entity).later⟩
  | measure sizeOf => exact (sameArgument_measureClaims g sizeOf).wellFormed_later h
  | forgetSizes => exact (sameArgument_forgetSizes g).wellFormed_later h
  | updateClaim id f => exact (sameArgument_updateClaim g id f).wellFormed_later h
  | updateAll f => exact (sameArgument_updateAll g f).wellFormed_later h
  | applyLayout layout => exact (sameArgument_moveClaims g layout.outline).wellFormed_later h
  | loadPayload payload =>
      rw [perform]
      split
      next loaded g' hload =>
        obtain ⟨hwf, hgrows, -⟩ := Payload.load_grows h hload
        exact ⟨hwf, hgrows.toLater⟩
      next => exact ⟨h, .refl g⟩
  | loadScript script =>
      rw [perform]
      split
      next vars g' hload =>
        obtain ⟨hwf, hgrows, -⟩ := Script.load_grows h hload
        exact ⟨hwf, hgrows.toLater⟩
      next => exact ⟨h, .refl g⟩

/-- Whatever is handed back was given out: it is live, or it was deleted just now. -/
theorem issued_of_handed (h : g.WellFormed) {operation : Operation α} {entity : Entity}
    (hmem : entity ∈ (g.perform operation).1) : (g.perform operation).2.Issued entity := by
  cases operation with
  | addClaim text metadata =>
      obtain rfl := List.mem_singleton.1 hmem
      exact (h.addClaim text metadata).issued ((contains_addClaim ..).2 (.inl rfl))
  | addRelation sources target kind metadata =>
      simp only [perform] at hmem ⊢
      split at hmem
      next added g' hadd =>
        obtain ⟨hwf, -, hlive⟩ := addRelation_wellFormed_grows h hadd
        obtain ⟨id, hid, rfl⟩ : ∃ id, added = some id ∧ Entity.relation id = entity := by
          simpa using hmem
        exact hwf.issued (hlive id hid)
      next => simp at hmem
  | delete target =>
      have hremoves := removes_delete h target
      refine hremoves.later.issued (h.issued ?_)
      rcases List.mem_append.1 hmem with hmem | hmem
      · obtain ⟨id, hid, rfl⟩ := List.mem_map.1 hmem
        exact hremoves.claims_live id hid
      · obtain ⟨id, hid, rfl⟩ := List.mem_map.1 hmem
        exact hremoves.relations_live id hid
  | loadPayload payload =>
      simp only [perform] at hmem ⊢
      split at hmem
      next loaded g' hload =>
        obtain ⟨hwf, -, hclaims, hrelations⟩ := Payload.load_grows h hload
        refine hwf.issued ?_
        rcases List.mem_append.1 hmem with hmem | hmem
        · obtain ⟨id, hid, rfl⟩ := List.mem_map.1 hmem
          exact hclaims id hid
        · obtain ⟨id, hid, rfl⟩ := List.mem_map.1 hmem
          exact hrelations id hid
      next => simp at hmem
  | loadScript script =>
      simp only [perform] at hmem ⊢
      split at hmem
      next vars g' hload =>
        obtain ⟨hwf, -, hlive⟩ := Script.load_grows h hload
        exact hwf.issued (hlive entity hmem)
      next => simp at hmem
  | _ => simp [perform] at hmem

theorem after_append (g : Graph α) (first second : List (Operation α)) :
    g.after (first ++ second) = (g.after first).after second := List.foldl_append

theorem after_wellFormed_later (h : g.WellFormed) (operations : List (Operation α)) :
    (g.after operations).WellFormed ∧ g.Later (g.after operations) := by
  induction operations generalizing g with
  | nil => exact ⟨h, .refl g⟩
  | cons operation rest ih =>
      obtain ⟨hwf, hlater⟩ := perform_wellFormed_later h operation
      obtain ⟨hwf', hlater'⟩ := ih hwf
      exact ⟨hwf', hlater.trans hlater'⟩

theorem issued_of_handed_run (h : g.WellFormed) {operations : List (Operation α)} {entity : Entity}
    (hmem : entity ∈ g.handed operations) : (g.after operations).Issued entity := by
  induction operations generalizing g with
  | nil => simp [handed] at hmem
  | cons operation rest ih =>
      obtain ⟨hwf, -⟩ := perform_wellFormed_later h operation
      rcases List.mem_append.1 hmem with hmem | hmem
      · exact (after_wellFormed_later hwf rest).2.issued (issued_of_handed h hmem)
      · exact ih hwf hmem

theorem Reachable.perform (h : g.Reachable) (operation : Operation α) :
    (g.perform operation).2.Reachable := by
  obtain ⟨operations, rfl⟩ := h
  exact ⟨operations ++ [operation], after_append ..⟩

theorem Reachable.wellFormed (h : g.Reachable) : g.WellFormed := by
  obtain ⟨operations, rfl⟩ := h
  exact (after_wellFormed_later wellFormed_empty operations).1

/-- Whatever is done to the empty graph, the invariant holds and every chain of targets ends at a live claim.
A handle that was handed back during the run, or stood for something at one point of it, and is dead at its
end stays dead whatever is done next. -/
theorem run_keeps_invariant (operations : List (Operation α)) :
    (empty.after operations).WellFormed ∧
    (∀ entity, (empty.after operations).contains entity →
      ∃ c, (empty.after operations).EndsAt entity c ∧ (empty.after operations).contains (.claim c)) ∧
    ∀ entity, entity ∈ empty.handed operations ∨
        (∃ start, start <+: operations ∧ (empty.after start).contains entity) →
      (empty.after operations).contains entity = false →
      ∀ more, (empty.after (operations ++ more)).contains entity = false := by
  obtain ⟨hwf, -⟩ := after_wellFormed_later wellFormed_empty operations
  refine ⟨hwf, fun entity hlive => hwf.exists_endsAt hlive, fun entity hknown hdead more => ?_⟩
  have hissued : (empty.after operations).Issued entity := by
    rcases hknown with hhanded | ⟨start, ⟨between, rfl⟩, hlive⟩
    · exact issued_of_handed_run wellFormed_empty hhanded
    · obtain ⟨hstart, -⟩ := after_wellFormed_later wellFormed_empty start
      rw [after_append]
      exact (after_wellFormed_later hstart between).2.issued (hstart.issued hlive)
  rw [after_append]
  by_contra hlive
  rw [Bool.not_eq_false] at hlive
  have hback := (after_wellFormed_later hwf more).2.not_revived hlive hissued
  rw [hdead] at hback
  exact Bool.false_ne_true hback

/-- A claim that went with its relation, and a claim that was added afterwards. -/
theorem run_keeps_invariant_after_delete :
    ((empty : Graph Float32).after ([.addClaim "a" .plain, .addClaim "b" .plain,
      .addRelation [⟨1⟩] (.claim ⟨0⟩) none .plain, .delete (.claim ⟨1⟩)] ++
      [.addClaim "c" .plain])).contains (.claim ⟨1⟩) = false := by
  have hrun := run_keeps_invariant (α := Float32) [.addClaim "a" .plain, .addClaim "b" .plain,
    .addRelation [⟨1⟩] (.claim ⟨0⟩) none .plain, .delete (.claim ⟨1⟩)]
  obtain ⟨-, -, hdead⟩ := hrun
  exact hdead (.claim ⟨1⟩) (.inl (by decide +kernel)) (by decide +kernel) _

end Graph

end ArgumentDiagram
