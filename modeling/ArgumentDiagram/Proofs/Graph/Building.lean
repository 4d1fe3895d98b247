import ArgumentDiagram.Proofs.Graph.Loading

/-!
Building graphs. Joining several sources, payloads and scripts come down to adding claims and relations one by
one, so what these two steps keep to, loading keeps to.
-/

namespace ArgumentDiagram

variable {α : Type} [Scalar α]

namespace Graph

/-- One graph can be made of another by adding claims and relations one by one. -/
inductive BuildsTo (g : Graph α) : Graph α → Prop where
  | refl : BuildsTo g g
  | addClaim {g' : Graph α} (h : BuildsTo g g') (text : String) (metadata : Metadata) :
      BuildsTo g (g'.addClaim text metadata).2
  | pushRelation {g' : Graph α} (h : BuildsTo g g') (source : ClaimId) (target : Entity)
      (kind : Option RelationKind) (metadata : Metadata) :
      BuildsTo g (g'.pushRelation source target kind metadata).2

variable {g g' g'' : Graph α}

theorem BuildsTo.trans (h : g.BuildsTo g') (h' : g'.BuildsTo g'') : g.BuildsTo g'' := by
  induction h' with
  | refl => exact h
  | addClaim _ text metadata ih => exact ih.addClaim text metadata
  | pushRelation _ source target kind metadata ih => exact ih.pushRelation source target kind metadata

theorem BuildsTo.pushFeeders (h : g.BuildsTo g') (joint : ClaimId) (metadata : Metadata)
    (sources : List ClaimId) : g.BuildsTo (g'.pushFeeders joint metadata sources) := by
  induction sources generalizing g' with
  | nil => exact h
  | cons source rest ih => exact ih (h.pushRelation source (.claim joint) none metadata)

theorem buildsTo_pushJoined (g : Graph α) (sources : List ClaimId) (target : Entity)
    (kind : Option RelationKind) (metadata : Metadata) :
    g.BuildsTo (g.pushJoined sources target kind metadata).2 :=
  ((BuildsTo.refl.addClaim _ _).pushFeeders _ _ _).pushRelation _ _ _ _

/-- A graph made of nothing, as it comes about by loading. -/
structure Fresh (g : Graph α) : Prop where
  wellFormed : g.WellFormed
  buildsTo : empty.BuildsTo g

/-- What is only added has been neither moved nor measured. -/
theorem Fresh.placement_eq (h : g.Fresh) {id : ClaimId} {claim : Claim α} (hclaim : g.claim? id = some claim) :
    claim.placement = .initial := by
  obtain ⟨-, hbuilds⟩ := h
  induction hbuilds with
  | refl => cases hclaim
  | addClaim _ text metadata ih =>
      rw [claim?_addClaim] at hclaim
      split at hclaim
      · obtain rfl := Option.some.inj hclaim
        rfl
      · exact ih hclaim
  | pushRelation _ source target kind metadata ih => exact ih hclaim

theorem buildsTo_addRelation {sources : List ClaimId} {target : Entity} {kind : Option RelationKind}
    {metadata : Metadata} {added : Option RelationId}
    (h : g.addRelation sources target kind metadata = .ok (added, g')) : g.BuildsTo g' := by
  rcases addRelation_cases h with ⟨-, -, rfl⟩ | ⟨source, -, -, -, -, rfl⟩ | ⟨-, -, -, -, rfl⟩
  · exact .refl
  · exact BuildsTo.refl.pushRelation _ _ _ _
  · exact buildsTo_pushJoined _ _ _ _ _

end Graph

namespace Payload

variable {p q : Progress α}

theorem buildsTo_foldl_addClaim (p : Progress α) (entries : List ClaimEntry) :
    p.graph.BuildsTo (entries.foldl addClaim p).graph := by
  induction entries generalizing p with
  | nil => exact .refl
  | cons entry rest ih => exact (Graph.BuildsTo.refl.addClaim _ _).trans (ih (addClaim p entry))

theorem buildsTo_addAll {entries : List RelationEntry} (hrun : addAll p entries = .ok q) :
    p.graph.BuildsTo q.graph := by
  induction entries generalizing p with
  | nil => exact addAll_nil.1 hrun ▸ .refl
  | cons entry rest ih =>
      obtain ⟨next, hadd, hrest⟩ := addAll_cons.1 hrun
      obtain ⟨_, _, _, _, -, -, -, hgraph, rfl⟩ := addRelation_eq_ok.1 hadd
      exact (Graph.buildsTo_addRelation hgraph).trans (ih hrest)

theorem buildsTo_load {payload : Payload} {g g' : Graph α} {loaded : Loaded}
    (hload : payload.load g = .ok (loaded, g')) : g.BuildsTo g' :=
  (buildsTo_foldl_addClaim ⟨g, .none⟩ payload.claims).trans (buildsTo_addAll (run_of_load hload).2)

theorem fresh_of_load {payload : Payload} {g : Graph α} {loaded : Loaded}
    (hload : payload.load .empty = .ok (loaded, g)) : g.Fresh :=
  ⟨(load_grows Graph.wellFormed_empty hload).1, buildsTo_load hload⟩

end Payload

namespace Script

variable {g g' : Graph α} {vars vars' : Variables}

theorem buildsTo_bind {s : Statement} (hbind : bind s g vars = .ok (g', vars')) : g.BuildsTo g' := by
  rw [bind] at hbind
  split at hbind
  next text hkind =>
    obtain ⟨rfl, rfl⟩ := Prod.mk.inj (Except.ok.inj hbind)
    exact Graph.BuildsTo.refl.addClaim _ _
  next sources kind target hkind =>
    simp only [Outcome.bind_eq_ok] at hbind
    obtain ⟨_, -, _, -, ⟨added, graph⟩, hadd, hresult⟩ := hbind
    cases added <;> obtain ⟨rfl, rfl⟩ := Prod.mk.inj (Except.ok.inj hresult) <;>
      exact Graph.buildsTo_addRelation hadd

theorem buildsTo_loadFrom {script : Script} (hload : loadFrom script g vars = .ok (g', vars')) :
    g.BuildsTo g' := by
  induction script generalizing g vars with
  | nil =>
      obtain ⟨rfl, rfl⟩ := Prod.mk.inj (Except.ok.inj hload)
      exact .refl
  | cons s rest ih =>
      rw [loadFrom] at hload
      split at hload
      next hbind => exact (buildsTo_bind hbind).trans (ih hload)
      next => simp at hload

theorem buildsTo_load {script : Script} (hload : script.load g = .ok (vars, g')) : g.BuildsTo g' :=
  buildsTo_loadFrom (load_eq_ok.1 hload)

theorem fresh_of_load {script : Script} (hload : script.load .empty = .ok (vars, g)) : g.Fresh :=
  ⟨(load_grows Graph.wellFormed_empty hload).1, buildsTo_load hload⟩

end Script

end ArgumentDiagram
