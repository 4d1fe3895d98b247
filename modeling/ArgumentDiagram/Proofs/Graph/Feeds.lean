import ArgumentDiagram.Graph.Query
import ArgumentDiagram.Proofs.Acyclic
import ArgumentDiagram.Proofs.Graph.Cascade

/-!
How claims bear on each other. The chain of targets of a relation ends at one claim; a claim feeds the
claims that the chains of its relations end at, and a root is a claim that feeds none. Claims that do not
reach a root go around in a cycle, so without cycles all of them do.
-/

open Relation

namespace ArgumentDiagram.Graph

variable {α : Type} {g : Graph α}

/-- One step along a chain of targets. -/
inductive PointsAt (g : Graph α) : Entity → Entity → Prop
  | of_target {id : RelationId} {r : Relation} {target : Entity} :
      g.relation? id = some r → r.target = target → PointsAt g (.relation id) target

/-- The claim at the end of the chain of targets that starts at an entity. -/
def EndsAt (g : Graph α) (entity : Entity) (c : ClaimId) : Prop :=
  ReflTransGen g.PointsAt entity (.claim c)

/-- A claim feeds the claims at which the chains of its relations end. -/
def Feeds (g : Graph α) (c d : ClaimId) : Prop :=
  ∃ id r, g.relation? id = some r ∧ r.source = c ∧ g.EndsAt (.relation id) d

def IsRoot (g : Graph α) (c : ClaimId) : Prop :=
  g.contains (.claim c) ∧ ∀ id r, g.relation? id = some r → r.source ≠ c

def ReachesRoot (g : Graph α) (c : ClaimId) : Prop := ∃ d, g.IsRoot d ∧ ReflTransGen g.Feeds c d

def OnCycle (g : Graph α) (c : ClaimId) : Prop := TransGen g.Feeds c c

theorem not_pointsAt_claim {c : ClaimId} {entity : Entity} : ¬g.PointsAt (.claim c) entity := nofun

theorem pointsAt_relation_iff {id : RelationId} {entity : Entity} :
    g.PointsAt (.relation id) entity ↔ ∃ r, g.relation? id = some r ∧ r.target = entity := by
  constructor
  · rintro ⟨hr, htarget⟩
    exact ⟨_, hr, htarget⟩
  · rintro ⟨r, hr, htarget⟩
    exact .of_target hr htarget

theorem pointsAt_unique : Relator.RightUnique g.PointsAt := by
  intro entity left right h h'
  cases h with
  | of_target hr htarget =>
      obtain ⟨r, hr', htarget'⟩ := pointsAt_relation_iff.1 h'
      rw [hr] at hr'
      rw [← htarget, ← htarget', Option.some.inj hr']

theorem endsAt_claim_iff {c d : ClaimId} : g.EndsAt (.claim d) c ↔ d = c := by
  constructor
  · intro h
    rcases ReflTransGen.cases_head h with heq | ⟨_, hstep, -⟩
    · exact Entity.claim.inj heq
    · exact absurd hstep not_pointsAt_claim
  · rintro rfl
    exact .refl

theorem endsAt_relation_iff {id : RelationId} {r : Relation} {c : ClaimId}
    (hr : g.relation? id = some r) : g.EndsAt (.relation id) c ↔ g.EndsAt r.target c := by
  constructor
  · intro h
    rcases ReflTransGen.cases_head h with heq | ⟨next, hstep, hrest⟩
    · cases heq
    · rwa [pointsAt_unique (.of_target hr rfl) hstep]
  · exact .head (.of_target hr rfl)

theorem endsAt_unique {entity : Entity} {c d : ClaimId} (hc : g.EndsAt entity c)
    (hd : g.EndsAt entity d) : c = d := by
  rcases ReflTransGen.total_of_right_unique pointsAt_unique hc hd with h | h
  · exact endsAt_claim_iff.1 h
  · exact (endsAt_claim_iff.1 h).symm

/-- Chains of targets lead from younger relations to older ones. -/
theorem WellFormed.index_le_of_pointsAt (h : g.WellFormed) {young old : RelationId}
    (hchain : ReflTransGen g.PointsAt (.relation young) (.relation old)) : old.index ≤ young.index := by
  generalize hentity : Entity.relation young = entity at hchain
  induction hchain using ReflTransGen.head_induction_on generalizing young with
  | refl => exact (Entity.relation.inj hentity).symm ▸ Nat.le_refl _
  | head hstep hrest ih =>
      subst hentity
      obtain ⟨r, hr, rfl⟩ := pointsAt_relation_iff.1 hstep
      cases htarget : r.target with
      | claim c =>
          rw [htarget] at hrest
          rcases ReflTransGen.cases_head hrest with heq | ⟨_, hstep, -⟩
          · cases heq
          · exact absurd hstep not_pointsAt_claim
      | relation other =>
          have := h.target_older hr htarget
          have := ih htarget.symm
          omega

/-- Every live entity has a claim at the end of its chain of targets. -/
theorem WellFormed.exists_endsAt (h : g.WellFormed) {entity : Entity} (hlive : g.contains entity) :
    ∃ c, g.EndsAt entity c ∧ g.contains (.claim c) := by
  cases entity with
  | claim c => exact ⟨c, endsAt_claim_iff.2 rfl, hlive⟩
  | relation id =>
      induction hn : id.index using Nat.strongRecOn generalizing id with
      | ind n ih =>
          obtain ⟨r, hr⟩ := contains_relation_iff.1 hlive
          have htarget := h.target_live hr
          simp only [endsAt_relation_iff hr]
          cases hcase : r.target with
          | claim c =>
              rw [hcase] at htarget
              exact ⟨c, endsAt_claim_iff.2 rfl, htarget⟩
          | relation other =>
              rw [hcase] at htarget
              exact ih _ (hn ▸ h.target_older hr hcase) other htarget rfl

/-! ### Roots and cycles -/

theorem mem_rootClaims_iff {c : ClaimId} : c ∈ g.rootClaims ↔ g.IsRoot c := by
  simp only [rootClaims, List.mem_filter, mem_claimIds_iff, IsRoot, Bool.not_eq_true',
    List.any_eq_false, Table.mem_values_iff, decide_eq_true_eq, relation?]
  apply and_congr_right
  intro _
  constructor
  · intro h id r hr
    exact h r ⟨id, hr⟩
  · rintro h r ⟨id, hr⟩
    exact h id r hr

theorem mem_incoming_iff (h : g.WellFormed) {id : RelationId} {target : Entity} :
    id ∈ g.incoming target ↔ ∃ r, g.relation? id = some r ∧ r.target = target := by
  simp [incoming, h.ownKeys.mem_filter_map, relation?]

/-- Stored under their own handles, relations are found once each. -/
theorem nodup_incoming (h : g.WellFormed) (target : Entity) : (g.incoming target).Nodup := by
  have hids : (g.relations.values.map (·.id)).Nodup := by
    rw [h.ownKeys.ids_values]
    exact g.relations.nodup_keys
  exact hids.sublist (List.filter_sublist.map _)

theorem nodup_rootClaims (g : Graph α) : g.rootClaims.Nodup := g.claims.nodup_keys.filter _

theorem WellFormed.feeds_live (h : g.WellFormed) {c d : ClaimId} (hfeeds : g.Feeds c d) :
    g.contains (.claim c) ∧ g.contains (.claim d) := by
  obtain ⟨id, r, hr, rfl, hends⟩ := hfeeds
  obtain ⟨d', hends', hlive⟩ := h.exists_endsAt (contains_relation_iff.2 ⟨r, hr⟩)
  exact ⟨h.source_live hr, endsAt_unique hends' hends ▸ hlive⟩

theorem live_of_endsAt {id : RelationId} {d : ClaimId} (hends : g.EndsAt (.relation id) d) :
    g.contains (.relation id) := by
  rcases ReflTransGen.cases_head hends with heq | ⟨_, hstep, -⟩
  · cases heq
  · obtain ⟨r, hr, -⟩ := pointsAt_relation_iff.1 hstep
    exact contains_relation_iff.2 ⟨r, hr⟩

theorem ReachesRoot.head {c d : ClaimId} (hfeeds : g.Feeds c d) (h : g.ReachesRoot d) :
    g.ReachesRoot c := by
  obtain ⟨root, hroot, hreach⟩ := h
  exact ⟨root, hroot, .head hfeeds hreach⟩

theorem WellFormed.live_of_reachesRoot (h : g.WellFormed) {c : ClaimId} (hreach : g.ReachesRoot c) :
    g.contains (.claim c) := by
  obtain ⟨root, hroot, hchain⟩ := hreach
  rcases ReflTransGen.cases_head hchain with rfl | ⟨d, hfeeds, -⟩
  · exact hroot.1
  · exact (h.feeds_live hfeeds).1

/-- A live claim is a root or feeds another one. -/
theorem WellFormed.isRoot_or_feeds (h : g.WellFormed) {c : ClaimId} (hlive : g.contains (.claim c)) :
    g.IsRoot c ∨ ∃ d, g.Feeds c d := by
  by_cases hsource : ∃ id r, g.relation? id = some r ∧ r.source = c
  · obtain ⟨id, r, hr, hc⟩ := hsource
    obtain ⟨d, hends, -⟩ := h.exists_endsAt (contains_relation_iff.2 ⟨r, hr⟩)
    exact .inr ⟨d, id, r, hr, hc, hends⟩
  · exact .inl ⟨hlive, fun id r hr hc => hsource ⟨id, r, hr, hc⟩⟩

/-- A root feeds nothing, so there are no cycles in a graph that is all about one root. -/
theorem not_onCycle_of_endsAt {root : ClaimId} (hroot : g.IsRoot root)
    (hends : ∀ id r, g.relation? id = some r → g.EndsAt (.relation id) root) (c : ClaimId) :
    ¬g.OnCycle c := by
  intro hcycle
  obtain ⟨_, ⟨id, r, hr, hsource, -⟩, -⟩ := TransGen.head'_iff.1 hcycle
  obtain ⟨_, -, id', r', hr', -, hback⟩ := TransGen.tail'_iff.1 hcycle
  obtain rfl := endsAt_unique (hends id' r' hr') hback
  exact hroot.2 id r hr hsource

/-- There are finitely many claims, so going from each claim to one that it feeds comes to an end unless it
goes around. -/
theorem WellFormed.reachesRoot_of_acyclic (h : g.WellFormed) (hacyclic : ∀ c, ¬g.OnCycle c) {c : ClaimId}
    (hlive : g.contains (.claim c)) : g.ReachesRoot c := by
  have hwf := Acyclic.wellFounded_after hacyclic g.claimIds
  refine hwf.induction (C := fun c => g.ReachesRoot c.1) ⟨c, mem_claimIds_iff.2 hlive⟩ ?_
  intro c ih
  rcases h.isRoot_or_feeds (mem_claimIds_iff.1 c.2) with hroot | ⟨d, hfeeds⟩
  · exact ⟨c.1, hroot, .refl⟩
  · exact (ih ⟨d, mem_claimIds_iff.2 (h.feeds_live hfeeds).2⟩ (.single hfeeds)).head hfeeds

namespace SameArgument

variable {g' : Graph α}

theorem endsAt (h : g.SameArgument g') {entity : Entity} {c : ClaimId} (hends : g.EndsAt entity c) :
    g'.EndsAt entity c := by
  have hpoints : g.PointsAt ≤ g'.PointsAt := by
    rintro _ _ ⟨hr, htarget⟩
    exact .of_target ((h.relation? _).trans hr) htarget
  exact ReflTransGen.mono hpoints _ _ hends

theorem feeds (h : g.SameArgument g') {c d : ClaimId} (hfeeds : g.Feeds c d) : g'.Feeds c d := by
  obtain ⟨id, r, hr, hsource, hends⟩ := hfeeds
  exact ⟨id, r, (h.relation? id).trans hr, hsource, h.endsAt hends⟩

theorem onCycle (h : g.SameArgument g') {c : ClaimId} (hcycle : g.OnCycle c) : g'.OnCycle c :=
  TransGen.mono (fun _ _ => h.feeds) _ _ hcycle

theorem isRoot (h : g.SameArgument g') {c : ClaimId} (hroot : g.IsRoot c) : g'.IsRoot c :=
  ⟨(h.contains _).trans hroot.1, fun id r hr => hroot.2 id r ((h.relation? id).symm.trans hr)⟩

theorem reachesRoot (h : g.SameArgument g') {c : ClaimId} (hreach : g.ReachesRoot c) :
    g'.ReachesRoot c := by
  obtain ⟨d, hroot, hchain⟩ := hreach
  exact ⟨d, h.isRoot hroot, ReflTransGen.mono (fun _ _ => h.feeds) _ _ hchain⟩

end SameArgument

end ArgumentDiagram.Graph
