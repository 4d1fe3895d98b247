import ArgumentDiagram.Proofs.Graph.Relating

/-!
Loading in place. Claims and relations are added to the graph at hand one after the other, and once one of them is
refused, the graph is put back as it was. Main statement: so whatever is done in place comes to what the operation
says, and nothing is left behind by what is refused.
-/

namespace ArgumentDiagram.Edit

variable {α β γ : Type}

/-- What comes of a change, and the graph that it leaves unless it is refused. -/
def outcome (edit : Edit α β) (g : Graph α) : Except GraphError (β × Graph α) :=
  match edit.on g with
  | (.ok b, g') => .ok (b, g')
  | (.error e, _) => .error e

def attempt (result : Except GraphError β) : Edit α β := MonadExcept.ofExcept result

def mapError (f : GraphError → GraphError) (edit : Edit α β) : Edit α β := tryCatch edit fun e => throw (f e)

/-- A change that puts the graph back as it was once it is refused. -/
def restoring (edit : Edit α β) : Edit α β := do
  let snapshot ← get
  try edit
  catch e =>
    set snapshot
    throw e

theorem outcome_bind (edit : Edit α β) (next : β → Edit α γ) (g : Graph α) :
    (edit >>= next).outcome g = edit.outcome g >>= fun left => (next left.1).outcome left.2 := by
  rw [outcome, on_bind, outcome]
  rcases edit.on g with ⟨e | b, g'⟩
  · rfl
  · rfl

theorem outcome_attempt (result : Except GraphError β) (g : Graph α) :
    (attempt result).outcome g = result.map (·, g) := by
  cases result <;> rfl

theorem on_tryCatch (edit : Edit α β) (handle : GraphError → Edit α β) (g : Graph α) :
    (tryCatch edit handle).on g =
      match edit.on g with
      | (.ok b, g') => (.ok b, g')
      | (.error e, g') => (handle e).on g' := by
  have hrun : StateT.run edit g = edit.on g := rfl
  have hrun' : StateT.run (ExceptT.run edit) g = edit.on g := rfl
  simp only [on, tryCatch, tryCatchThe, MonadExceptOf.tryCatch, ExceptT.tryCatch, ExceptT.run_mk, StateT.run_bind]
  rw [hrun, hrun']
  rcases edit.on g with ⟨e | b, g'⟩
  · rfl
  · rfl

theorem outcome_mapError (f : GraphError → GraphError) (edit : Edit α β) (g : Graph α) :
    (edit.mapError f).outcome g = (edit.outcome g).mapError f := by
  rw [outcome, mapError, on_tryCatch, outcome]
  rcases edit.on g with ⟨e | b, g'⟩
  · rfl
  · rfl

/-- A change that is refused leaves the graph as it was, whatever had been done by then. -/
theorem on_restoring (edit : Edit α β) (g : Graph α) : edit.restoring.on g =
    match edit.outcome g with
    | .ok (b, g') => (.ok b, g')
    | .error e => (.error e, g) := by
  change (tryCatch edit fun e => do set g; throw e).on g = _
  rw [on_tryCatch, outcome]
  rcases edit.on g with ⟨e | b, g'⟩
  · rfl
  · rfl

section

variable [Scalar α]

theorem outcome_addRelation (sources : List ClaimId) (target : Entity) (kind : Option RelationKind)
    (metadata : Metadata) (g : Graph α) :
    (addRelation sources target kind metadata).outcome g = g.addRelation sources target kind metadata := by
  rw [outcome, on_addRelation]
  cases g.addRelation sources target kind metadata <;> rfl

def loadClaim (loaded : Loaded) (entry : ClaimEntry) : Edit α Loaded := do
  let id ← make (·.addClaim entry.text { Metadata.ofAssumption entry.assumption with scope := entry.scope })
  pure { loaded with claims := loaded.claims.insert entry.id id }

def loadRelation (loaded : Loaded) (entry : RelationEntry) : Edit α Loaded := do
  let sources ← attempt ((Payload.sortedSources entry).mapM loaded.source)
  let target ← attempt (loaded.target entry.target)
  if loaded.relations.contains entry.id then throw (.duplicateRelation entry.id)
  let added ← addRelation sources target (entry.kind.bind RelationKind.named?) (.ofAssumption entry.assumption)
  match added with
  | some id => pure { loaded with relations := loaded.relations.insert entry.id id }
  | none => pure loaded

/-- One round, which adds all that need not wait. -/
def loadRound (waiting : List PayloadId) : List RelationEntry → Loaded → Edit α (List RelationEntry × Loaded)
  | [], loaded => pure ([], loaded)
  | entry :: rest, loaded =>
    if Payload.isBlocked loaded waiting entry then do
      let (deferred, loaded) ← loadRound waiting rest loaded
      pure (entry :: deferred, loaded)
    else do
      let loaded ← loadRelation loaded entry
      loadRound waiting rest loaded

def loadRounds (pending : List RelationEntry) (loaded : Loaded) : Edit α Loaded := do
  let (deferred, loaded) ← loadRound (pending.map (·.id)) pending loaded
  match deferred with
  | [] => pure loaded
  | first :: deferred =>
    if deferred.length + 1 < pending.length then loadRounds (first :: deferred) loaded
    else throw (Loaded.unknown first.target)
termination_by pending.length

/-- Loads a payload into the graph at hand. -/
def loadPayload (payload : Payload) : Edit α Loaded := restoring do
  let loaded ← payload.claims.foldlM loadClaim .none
  loadRounds (Payload.inOrder payload.relations) loaded

theorem outcome_loadRelation (p : Payload.Progress α) (entry : RelationEntry) :
    (loadRelation p.loaded entry).outcome p.graph =
      (Payload.addRelation p entry).map fun q => (q.loaded, q.graph) := by
  rw [loadRelation, Payload.addRelation]
  simp only [outcome_bind, outcome_attempt]
  cases (Payload.sortedSources entry).mapM p.loaded.source with
  | error e => rfl
  | ok sources =>
      cases p.loaded.target entry.target with
      | error e => rfl
      | ok target =>
          change outcome (if p.loaded.relations.contains entry.id then _ else _) p.graph =
            Except.map _ (if p.loaded.relations.contains entry.id then _ else _)
          split
          · rfl
          · rw [outcome_bind, outcome_addRelation]
            cases p.graph.addRelation sources target (entry.kind.bind RelationKind.named?)
              (.ofAssumption entry.assumption) with
            | error e => rfl
            | ok added => rcases added with ⟨_ | id, g⟩ <;> rfl

theorem outcome_loadRound (waiting : List PayloadId) (entries : List RelationEntry) (p : Payload.Progress α) :
    (loadRound waiting entries p.loaded).outcome p.graph =
      (Payload.round waiting entries p).map fun left => ((left.1, left.2.loaded), left.2.graph) := by
  induction entries generalizing p with
  | nil => rfl
  | cons entry rest ih =>
      rw [loadRound, Payload.round]
      split
      · rw [outcome_bind, ih]
        cases Payload.round waiting rest p <;> rfl
      · rw [outcome_bind, outcome_loadRelation]
        cases Payload.addRelation p entry with
        | error e => rfl
        | ok q => exact ih q

theorem outcome_loadRounds (pending : List RelationEntry) (p : Payload.Progress α) :
    (loadRounds pending p.loaded).outcome p.graph =
      (Payload.rounds pending p).map fun q => (q.loaded, q.graph) := by
  rw [loadRounds, outcome_bind, outcome_loadRound, Payload.rounds]
  cases Payload.round (pending.map (·.id)) pending p with
  | error e => rfl
  | ok left =>
      rcases left with ⟨_ | ⟨first, deferred⟩, q⟩
      · rfl
      · change outcome (if deferred.length + 1 < pending.length then _ else _) q.graph =
          Except.map _ (if deferred.length + 1 < pending.length then _ else _)
        split
        · exact outcome_loadRounds (first :: deferred) q
        · rfl
termination_by pending.length

theorem outcome_loadClaims (entries : List ClaimEntry) (p : Payload.Progress α) :
    (entries.foldlM loadClaim p.loaded).outcome p.graph =
      .ok ((entries.foldl Payload.addClaim p).loaded, (entries.foldl Payload.addClaim p).graph) := by
  induction entries generalizing p with
  | nil => rfl
  | cons entry rest ih => exact ih (Payload.addClaim p entry)

/-- A payload loaded in place leaves the graph with it, or as it was. -/
theorem on_loadPayload (payload : Payload) (g : Graph α) : (loadPayload payload).on g =
    match payload.load g with
    | .ok (loaded, g') => (.ok loaded, g')
    | .error e => (.error e, g) := by
  have houtcome : outcome (do
      let loaded ← payload.claims.foldlM loadClaim .none
      loadRounds (Payload.inOrder payload.relations) loaded) g = payload.load g := by
    rw [outcome_bind, outcome_loadClaims payload.claims ⟨g, .none⟩]
    exact outcome_loadRounds _ (payload.claims.foldl Payload.addClaim ⟨g, .none⟩)
  rw [loadPayload, on_restoring, houtcome]
  cases payload.load g <;> rfl

def bindStatement (s : Statement) (vars : Variables) : Edit α Variables :=
  match s.kind with
  | .claim text => do
    let id ← make (·.addClaim text (Script.metadataOf s))
    pure (vars.insert s.name (.claim id))
  | .relation sources kind target => do
    let sources ← attempt (sources.mapM vars.source)
    let target ← attempt (vars.find target)
    let added ← addRelation sources target (some kind) (Script.metadataOf s)
    match added with
    | some id => pure (vars.insert s.name (.relation id))
    | none => pure vars

def loadStatements : Script → Variables → Edit α Variables
  | [], vars => pure vars
  | s :: rest, vars => do
    let vars ← mapError (.script s.line) (bindStatement s vars)
    loadStatements rest vars

/-- Loads a script into the graph at hand. -/
def loadScript (script : Script) : Edit α Variables := restoring (loadStatements script .empty)

theorem outcome_bindStatement (s : Statement) (vars : Variables) (g : Graph α) :
    (bindStatement s vars).outcome g = (Script.bind s g vars).map Prod.swap := by
  rw [bindStatement, Script.bind]
  cases s.kind with
  | claim text => rfl
  | relation sources kind target =>
      simp only [outcome_bind, outcome_attempt]
      cases sources.mapM vars.source with
      | error e => rfl
      | ok sources =>
          cases vars.find target with
          | error e => rfl
          | ok target =>
              change (outcome (addRelation _ _ _ _) g >>= _) =
                (g.addRelation sources target (some kind) (Script.metadataOf s) >>= _).map Prod.swap
              rw [outcome_addRelation]
              cases g.addRelation sources target (some kind) (Script.metadataOf s) with
              | error e => rfl
              | ok added => rcases added with ⟨_ | id, g'⟩ <;> rfl

theorem outcome_loadStatements (script : Script) (vars : Variables) (g : Graph α) :
    (loadStatements script vars).outcome g = (Script.loadFrom script g vars).map Prod.swap := by
  induction script generalizing vars g with
  | nil => rfl
  | cons s rest ih =>
      rw [loadStatements, outcome_bind, outcome_mapError, outcome_bindStatement, Script.loadFrom]
      cases Script.bind s g vars with
      | error e => rfl
      | ok bound => exact ih bound.2 bound.1

/-- A script loaded in place leaves the graph with it, or as it was. -/
theorem on_loadScript (script : Script) (g : Graph α) : (loadScript script).on g =
    match script.load g with
    | .ok (vars, g') => (.ok vars, g')
    | .error e => (.error e, g) := by
  have hload : script.load g = (Script.loadFrom script g .empty).map Prod.swap := by
    rw [Script.load]
    cases Script.loadFrom script g .empty <;> rfl
  rw [loadScript, on_restoring, outcome_loadStatements, ← hload]
  cases script.load g <;> rfl

/-- Carries out an operation in place, and hands back its handles. -/
def carryOut : Operation α → Edit α (List Entity)
  | .addRelation sources target kind metadata => do
    let added ← addRelation sources target kind metadata
    pure (added.map .relation).toList
  | .loadPayload payload => do
    let loaded ← loadPayload payload
    pure (loaded.claims.values.map .claim ++ loaded.relations.values.map .relation)
  | .loadScript script => do
    let vars ← loadScript script
    pure vars.values
  | operation => make (·.perform operation)

/-- **Operations in place.** What an operation hands back and the graph that it leaves are the same whether it makes
a new graph or works on the one at hand, and in place too a refused one leaves the graph as it was. -/
theorem on_carryOut (operation : Operation α) (g : Graph α) :
    (carryOut operation).on g = (.ok (g.perform operation).1, (g.perform operation).2) ∨
      (∃ e, (carryOut operation).on g = (.error e, g)) ∧ g.perform operation = ([], g) := by
  cases operation with
  | addRelation sources target kind metadata =>
      rw [carryOut, on_bind, on_addRelation, Graph.perform]
      cases g.addRelation sources target kind metadata with
      | error e => exact .inr ⟨⟨e, rfl⟩, rfl⟩
      | ok added => exact .inl rfl
  | loadPayload payload =>
      rw [carryOut, on_bind, on_loadPayload, Graph.perform]
      cases payload.load g with
      | error e => exact .inr ⟨⟨e, rfl⟩, rfl⟩
      | ok loaded => exact .inl rfl
  | loadScript script =>
      rw [carryOut, on_bind, on_loadScript, Graph.perform]
      cases script.load g with
      | error e => exact .inr ⟨⟨e, rfl⟩, rfl⟩
      | ok loaded => exact .inl rfl
  | _ => exact .inl rfl

end

end ArgumentDiagram.Edit
