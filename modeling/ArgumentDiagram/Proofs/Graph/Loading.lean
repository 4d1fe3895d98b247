import ArgumentDiagram.Proofs.Payload.Rounds
import ArgumentDiagram.Script.Load

/-!
Loading is growth: payloads and scripts only add entities, so the invariant and all that a graph holds are
kept, and every handle that a name or a variable stands for in the end is live.
-/

namespace ArgumentDiagram

variable {α : Type} {g : Graph α}

namespace Payload

/-- A graph being loaded that grew from another one, with names that stand for live entities. -/
structure Progress.GrownFrom (p : Progress α) (g : Graph α) : Prop where
  wellFormed : p.graph.WellFormed
  grows : g.Grows p.graph
  claims_live : ∀ {key id}, p.loaded.claims.get? key = some id → p.graph.contains (.claim id)
  relations_live : ∀ {key id}, p.loaded.relations.get? key = some id → p.graph.contains (.relation id)

theorem Progress.grownFrom_start (h : g.WellFormed) : (⟨g, .none⟩ : Progress α).GrownFrom g where
  wellFormed := h
  grows := .refl g
  claims_live hget := by simp [Loaded.none] at hget
  relations_live hget := by simp [Loaded.none] at hget

theorem Progress.GrownFrom.self {p : Progress α} (h : p.GrownFrom g) : p.GrownFrom p.graph :=
  ⟨h.wellFormed, .refl _, h.claims_live, h.relations_live⟩

variable [Scalar α] {p p' : Progress α}

theorem grownFrom_addClaim (h : p.GrownFrom g) (entry : ClaimEntry) : (addClaim p entry).GrownFrom g := by
  have hadd := Graph.grows_addClaim h.wellFormed entry.text
    { Metadata.ofAssumption entry.assumption with scope := entry.scope }
  refine ⟨h.wellFormed.addClaim _ _, h.grows.trans hadd, fun {key id} hget => ?_,
    fun hget => hadd.contains (h.relations_live hget)⟩
  change (p.loaded.claims.insert entry.id ⟨p.graph.nextClaim⟩).get? key = some id at hget
  rw [Table.get?_insert] at hget
  split at hget
  next =>
    obtain rfl := Option.some.inj hget
    exact (Graph.contains_addClaim ..).2 (.inl rfl)
  next => exact hadd.contains (h.claims_live hget)

theorem grownFrom_foldl_addClaim (h : p.GrownFrom g) (entries : List ClaimEntry) :
    (entries.foldl addClaim p).GrownFrom g := by
  induction entries generalizing p with
  | nil => exact h
  | cons entry rest ih => exact ih (grownFrom_addClaim h entry)

theorem grownFrom_start (h : g.WellFormed) {payload : Payload} : (payload.start g).GrownFrom g :=
  grownFrom_foldl_addClaim (Progress.grownFrom_start h) payload.claims

theorem grownFrom_addRelation (h : p.GrownFrom g) {entry : RelationEntry}
    (hadd : addRelation p entry = .ok p') : p'.GrownFrom g := by
  obtain ⟨_, _, added, graph, -, -, -, hgraph, rfl⟩ := addRelation_eq_ok.1 hadd
  obtain ⟨hwf, hgrows, hlive⟩ := Graph.addRelation_wellFormed_grows h.wellFormed hgraph
  refine ⟨hwf, h.grows.trans hgrows, fun {key id} hget => ?_, fun {key id} hget => ?_⟩
  · rw [Loaded.claims_record] at hget
    exact hgrows.contains (h.claims_live hget)
  · cases added with
    | none => exact hgrows.contains (h.relations_live hget)
    | some new =>
        simp only [Loaded.record, Table.get?_insert] at hget
        split at hget
        next => exact hlive id hget
        next => exact hgrows.contains (h.relations_live hget)

theorem grownFrom_addAll (h : p.GrownFrom g) {entries : List RelationEntry}
    (hrun : addAll p entries = .ok p') : p'.GrownFrom g := by
  induction entries generalizing p with
  | nil => exact addAll_nil.1 hrun ▸ h
  | cons entry rest ih =>
      obtain ⟨next, hadd, hrest⟩ := addAll_cons.1 hrun
      exact ih (grownFrom_addRelation h hadd) hrest

/-- A payload that is loaded adds to a graph and changes nothing of it; its names stand for live entities. -/
theorem load_grows (h : g.WellFormed) {payload : Payload} {loaded : Loaded} {g' : Graph α}
    (hload : payload.load g = .ok (loaded, g')) :
    g'.WellFormed ∧ g.Grows g' ∧ (∀ id ∈ loaded.claims.values, g'.contains (.claim id)) ∧
      ∀ id ∈ loaded.relations.values, g'.contains (.relation id) := by
  have hp := grownFrom_addAll (grownFrom_start h) (run_of_load hload).2
  refine ⟨hp.wellFormed, hp.grows, fun id hid => ?_, fun id hid => ?_⟩
  · obtain ⟨key, hget⟩ := Table.mem_values_iff.1 hid
    exact hp.claims_live hget
  · obtain ⟨key, hget⟩ := Table.mem_values_iff.1 hid
    exact hp.relations_live hget

end Payload

namespace Script

variable [Scalar α] {g' : Graph α} {vars vars' : Variables}

/-- Variables that stand for live entities. -/
def Live (g : Graph α) (vars : Variables) : Prop :=
  ∀ {name entity}, vars.get? name = some entity → g.contains entity

omit [Scalar α] in
theorem Live.insert (h : Live g vars) (hgrows : g.Grows g') {entity : Entity}
    (hlive : g'.contains entity) (name : String) : Live g' (vars.insert name entity) := by
  intro other found hget
  rw [Table.get?_insert] at hget
  split at hget
  next =>
    obtain rfl := Option.some.inj hget
    exact hlive
  next => exact hgrows.contains (h hget)

theorem bind_grows (h : g.WellFormed) (hvars : Live g vars) {s : Statement}
    (hbind : bind s g vars = .ok (g', vars')) : g'.WellFormed ∧ g.Grows g' ∧ Live g' vars' := by
  rw [bind] at hbind
  split at hbind
  next text hkind =>
    obtain ⟨rfl, rfl⟩ := Prod.mk.inj (Except.ok.inj hbind)
    have hgrows := Graph.grows_addClaim h text (metadataOf s)
    exact ⟨h.addClaim _ _, hgrows, hvars.insert hgrows ((Graph.contains_addClaim ..).2 (.inl rfl)) _⟩
  next sources kind target hkind =>
    simp only [Outcome.bind_eq_ok] at hbind
    obtain ⟨sources, -, target, -, ⟨added, graph⟩, hadd, hresult⟩ := hbind
    obtain ⟨hwf, hgrows, hlive⟩ := Graph.addRelation_wellFormed_grows h hadd
    cases added with
    | none =>
        obtain ⟨rfl, rfl⟩ := Prod.mk.inj (Except.ok.inj hresult)
        exact ⟨hwf, hgrows, fun hget => hgrows.contains (hvars hget)⟩
    | some id =>
        obtain ⟨rfl, rfl⟩ := Prod.mk.inj (Except.ok.inj hresult)
        exact ⟨hwf, hgrows, hvars.insert hgrows (hlive id rfl) _⟩

theorem loadFrom_grows (h : g.WellFormed) (hvars : Live g vars) {script : Script}
    (hload : loadFrom script g vars = .ok (g', vars')) : g'.WellFormed ∧ g.Grows g' ∧ Live g' vars' := by
  induction script generalizing g vars with
  | nil =>
      obtain ⟨rfl, rfl⟩ := Prod.mk.inj (Except.ok.inj hload)
      exact ⟨h, .refl g, hvars⟩
  | cons s rest ih =>
      rw [loadFrom] at hload
      split at hload
      next g₁ vars₁ hbind =>
        obtain ⟨hwf, hgrows, hlive⟩ := bind_grows h hvars hbind
        obtain ⟨hwf', hgrows', hlive'⟩ := ih hwf hlive hload
        exact ⟨hwf', hgrows.trans hgrows', hlive'⟩
      next => simp at hload

theorem load_eq_ok {script : Script} :
    script.load g = .ok (vars, g') ↔ loadFrom script g .empty = .ok (g', vars) := by
  rw [load, Outcome.bind_eq_ok]
  constructor
  · rintro ⟨⟨graph, found⟩, hfrom, hresult⟩
    obtain ⟨rfl, rfl⟩ := Prod.mk.inj (Except.ok.inj hresult)
    exact hfrom
  · intro hfrom
    exact ⟨_, hfrom, rfl⟩

theorem load_eq_error {script : Script} {e : GraphError} :
    script.load g = .error e ↔ loadFrom script g .empty = .error e := by
  rw [load, Outcome.bind_eq_error]
  constructor
  · rintro (h | ⟨_, -, h⟩)
    · exact h
    · cases h
  · exact .inl

/-- A script that is loaded adds to a graph and changes nothing of it; its variables stand for live entities. -/
theorem load_grows (h : g.WellFormed) {script : Script} (hload : script.load g = .ok (vars, g')) :
    g'.WellFormed ∧ g.Grows g' ∧ ∀ entity ∈ vars.values, g'.contains entity := by
  obtain ⟨hwf, hgrows, hlive⟩ := loadFrom_grows h (fun hget => by simp at hget) (load_eq_ok.1 hload)
  refine ⟨hwf, hgrows, fun entity hmem => ?_⟩
  obtain ⟨name, hget⟩ := Table.mem_values_iff.1 hmem
  exact hlive hget

end Script

end ArgumentDiagram
