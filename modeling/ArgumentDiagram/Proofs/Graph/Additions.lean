import ArgumentDiagram.Proofs.Graph.Growth
import Mathlib.Data.List.Intervals
import Mathlib.Data.List.Nodup

/-!
What is added to a graph. The handles that are given out from one state to a later one follow on each other, and
those that joining sources adds are known: the joint, a relation into it from each source, and the relation from
it.
-/

open List (Forall₂)

namespace ArgumentDiagram

namespace Graph

variable {α : Type} {g g' g'' : Graph α}

/-- The handles of claims that were given out from one state to a later one. -/
def claimsSince (g g' : Graph α) : List ClaimId := (List.Ico g.nextClaim g'.nextClaim).map ClaimId.mk

/-- The handles of relations that were given out from one state to a later one. -/
def relationsSince (g g' : Graph α) : List RelationId :=
  (List.Ico g.nextRelation g'.nextRelation).map RelationId.mk

theorem mem_claimsSince {id : ClaimId} :
    id ∈ g.claimsSince g' ↔ g.nextClaim ≤ id.index ∧ id.index < g'.nextClaim := by
  rw [claimsSince, List.mem_map_of_injective fun _ _ => ClaimId.mk.inj, List.Ico.mem]

theorem mem_relationsSince {id : RelationId} :
    id ∈ g.relationsSince g' ↔ g.nextRelation ≤ id.index ∧ id.index < g'.nextRelation := by
  rw [relationsSince, List.mem_map_of_injective fun _ _ => RelationId.mk.inj, List.Ico.mem]

theorem nodup_claimsSince (g g' : Graph α) : (g.claimsSince g').Nodup :=
  (List.Ico.nodup _ _).map fun _ _ => ClaimId.mk.inj

theorem nodup_relationsSince (g g' : Graph α) : (g.relationsSince g').Nodup :=
  (List.Ico.nodup _ _).map fun _ _ => RelationId.mk.inj

theorem ascending_relationsSince (g g' : Graph α) :
    (g.relationsSince g').Pairwise fun a b => a.index < b.index :=
  List.pairwise_map.2 (List.Ico.pairwise_lt _ _)

theorem Later.claimsSince_append (h : g.Later g') (h' : g'.Later g'') :
    g.claimsSince g' ++ g'.claimsSince g'' = g.claimsSince g'' := by
  rw [claimsSince, claimsSince, ← List.map_append, List.Ico.append_consecutive h.nextClaim h'.nextClaim,
    claimsSince]

theorem Later.relationsSince_append (h : g.Later g') (h' : g'.Later g'') :
    g.relationsSince g' ++ g'.relationsSince g'' = g.relationsSince g'' := by
  rw [relationsSince, relationsSince, ← List.map_append,
    List.Ico.append_consecutive h.nextRelation h'.nextRelation, relationsSince]

/-- When all handles that were given out since are live, they are what came on top. -/
theorem Grows.live_claim_iff (h : g.Grows g') (hwf : g'.WellFormed)
    (hlive : ∀ id ∈ g.claimsSince g', g'.contains (.claim id)) (id : ClaimId) :
    g'.contains (.claim id) ↔ g.contains (.claim id) ∨ id ∈ g.claimsSince g' := by
  refine ⟨fun hid => ?_, fun hid => hid.elim h.contains (hlive id)⟩
  by_cases hold : id.index < g.nextClaim
  · exact .inl (h.not_revived hid hold)
  · exact .inr (mem_claimsSince.2 ⟨Nat.le_of_not_lt hold, hwf.claim_below hid⟩)

theorem Grows.live_relation_iff (h : g.Grows g') (hwf : g'.WellFormed)
    (hlive : ∀ id ∈ g.relationsSince g', g'.contains (.relation id)) (id : RelationId) :
    g'.contains (.relation id) ↔ g.contains (.relation id) ∨ id ∈ g.relationsSince g' := by
  refine ⟨fun hid => ?_, fun hid => hid.elim h.contains (hlive id)⟩
  by_cases hold : id.index < g.nextRelation
  · exact .inl (h.not_revived hid hold)
  · exact .inr (mem_relationsSince.2 ⟨Nat.le_of_not_lt hold, hwf.relation_below hid⟩)

theorem Grows.claim?_of_notMem (h : g.Grows g') (hwf : g'.WellFormed) {id : ClaimId}
    (hid : id ∉ g.claimsSince g') : g'.claim? id = g.claim? id := by
  cases hc : g.claim? id with
  | some c => exact h.claim? hc
  | none =>
      rw [Option.eq_none_iff_forall_ne_some]
      intro c hc'
      have hlive := contains_claim_iff.2 ⟨c, hc'⟩
      have hold : id.index < g.nextClaim :=
        Nat.lt_of_not_le fun hle => hid (mem_claimsSince.2 ⟨hle, hwf.claim_below hlive⟩)
      obtain ⟨_, hc''⟩ := contains_claim_iff.1 (h.not_revived hlive hold)
      rw [hc] at hc''
      cases hc''

theorem Grows.relation?_of_notMem (h : g.Grows g') (hwf : g'.WellFormed) {id : RelationId}
    (hid : id ∉ g.relationsSince g') : g'.relation? id = g.relation? id := by
  cases hr : g.relation? id with
  | some r => exact h.relation? hr
  | none =>
      rw [Option.eq_none_iff_forall_ne_some]
      intro r hr'
      have hlive := contains_relation_iff.2 ⟨r, hr'⟩
      have hold : id.index < g.nextRelation :=
        Nat.lt_of_not_le fun hle => hid (mem_relationsSince.2 ⟨hle, hwf.relation_below hlive⟩)
      obtain ⟨_, hr''⟩ := contains_relation_iff.1 (h.not_revived hlive hold)
      rw [hr] at hr''
      cases hr''

theorem length_claimsSince (g g' : Graph α) : (g.claimsSince g').length = g'.nextClaim - g.nextClaim := by
  rw [claimsSince, List.length_map, List.Ico.length]

theorem length_relationsSince (g g' : Graph α) :
    (g.relationsSince g').length = g'.nextRelation - g.nextRelation := by
  rw [relationsSince, List.length_map, List.Ico.length]

@[simp]
theorem claimsSince_self (g : Graph α) : g.claimsSince g = [] := by simp [claimsSince]

@[simp]
theorem relationsSince_self (g : Graph α) : g.relationsSince g = [] := by simp [relationsSince]

section Relation

variable (g : Graph α) (source : ClaimId) (target : Entity) (kind : Option RelationKind)
  (metadata : Metadata)

@[simp]
theorem claimsSince_pushRelation :
    g.claimsSince (g.pushRelation source target kind metadata).2 = [] := by
  simp [claimsSince, pushRelation]

@[simp]
theorem relationsSince_pushRelation :
    g.relationsSince (g.pushRelation source target kind metadata).2 = [⟨g.nextRelation⟩] := by
  simp [relationsSince, pushRelation]

end Relation

/-- The relations into a joint come one after the other, in the order of their sources. -/
theorem relation?_pushFeeders (h : g.WellFormed) {joint : ClaimId} (hjoint : g.contains (.claim joint))
    (metadata : Metadata) {sources : List ClaimId}
    (hsources : ∀ source ∈ sources, g.contains (.claim source)) :
    g.claimsSince (g.pushFeeders joint metadata sources) = [] ∧
    Forall₂ (fun id source => (g.pushFeeders joint metadata sources).relation? id =
        some ⟨id, source, .claim joint, none, metadata⟩)
      (g.relationsSince (g.pushFeeders joint metadata sources)) sources := by
  induction sources generalizing g with
  | nil => simp [pushFeeders]
  | cons source rest ih =>
      obtain ⟨hsource, hrest⟩ := List.forall_mem_cons.1 hsources
      have hgrows := grows_pushRelation h source (.claim joint) none metadata
      have hwf := h.pushRelation hsource hjoint none metadata
      have hlive : ∀ s ∈ rest, _ := fun s hs => hgrows.contains (hrest s hs)
      obtain ⟨-, hmore⟩ := pushFeeders_wellFormed_grows hwf (hgrows.contains hjoint) metadata hlive
      obtain ⟨hclaims, hrelations⟩ := ih hwf (hgrows.contains hjoint) hlive
      rw [pushFeeders, List.foldl_cons, ← pushFeeders, ← hgrows.claimsSince_append hmore.toLater,
        ← hgrows.relationsSince_append hmore.toLater, hclaims, claimsSince_pushRelation,
        relationsSince_pushRelation]
      refine ⟨rfl, .cons (hmore.relation? ?_) hrelations⟩
      rw [relation?_pushRelation, if_pos rfl]

variable [Scalar α]

@[simp]
theorem claimsSince_addClaim (g : Graph α) (text : String) (metadata : Metadata) :
    g.claimsSince (g.addClaim text metadata).2 = [⟨g.nextClaim⟩] := by
  simp [claimsSince, addClaim]

@[simp]
theorem relationsSince_addClaim (g : Graph α) (text : String) (metadata : Metadata) :
    g.relationsSince (g.addClaim text metadata).2 = [] := by
  simp [relationsSince, addClaim]

/-- What joining sources adds: the joint, a relation into it from each source, and the relation from it. -/
theorem added_pushJoined (h : g.WellFormed) {sources : List ClaimId} {target : Entity}
    (hsources : ∀ source ∈ sources, g.contains (.claim source)) (kind : Option RelationKind)
    (metadata : Metadata) {added : RelationId × Graph α}
    (hadded : added = g.pushJoined sources target kind metadata) :
    ∃ joint feeders, g.claimsSince added.2 = [joint] ∧ g.relationsSince added.2 = feeders ++ [added.1] ∧
      added.2.claim? joint = some (.create joint joinText .plain) ∧
      Forall₂ (fun id source => added.2.relation? id = some ⟨id, source, .claim joint, none, metadata⟩)
        feeders sources ∧
      added.2.relation? added.1 = some ⟨added.1, joint, target, kind, { metadata with merged := true }⟩ := by
  have hclaim := grows_addClaim h joinText .plain
  have hjoint := (contains_addClaim g joinText .plain (.claim ⟨g.nextClaim⟩)).2 (.inl rfl)
  have hlive : ∀ source ∈ sources, _ := fun source hs => hclaim.contains (hsources source hs)
  have hfirst := h.addClaim joinText .plain
  obtain ⟨hwf, hfeeders⟩ := pushFeeders_wellFormed_grows hfirst hjoint metadata hlive
  obtain ⟨hnone, hpointing⟩ := relation?_pushFeeders hfirst hjoint metadata hlive
  have hlast := grows_pushRelation hwf ⟨g.nextClaim⟩ target kind { metadata with merged := true }
  have hlater := hfeeders.trans hlast
  obtain rfl : added =
      ((g.addClaim joinText .plain).2.pushFeeders ⟨g.nextClaim⟩ metadata sources).pushRelation
        ⟨g.nextClaim⟩ target kind { metadata with merged := true } := hadded
  refine ⟨⟨g.nextClaim⟩, _, ?_, ?_, hlater.claim? ?_, hpointing.imp fun _ _ => hlast.relation?, ?_⟩
  · rw [← hclaim.claimsSince_append hlater.toLater, ← hfeeders.claimsSince_append hlast.toLater, hnone,
      claimsSince_addClaim, claimsSince_pushRelation]
    rfl
  · rw [← hclaim.relationsSince_append hlater.toLater, ← hfeeders.relationsSince_append hlast.toLater,
      relationsSince_addClaim, relationsSince_pushRelation]
    rfl
  · rw [claim?_addClaim, if_pos rfl]
  · exact (relation?_pushRelation ..).trans (if_pos rfl)

end Graph

end ArgumentDiagram
