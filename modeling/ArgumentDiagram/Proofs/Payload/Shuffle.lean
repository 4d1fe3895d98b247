import ArgumentDiagram.Proofs.Graph.Renaming
import ArgumentDiagram.Proofs.Payload.Contents

/-!
The order of the relations of a payload, and that of the sources of a relation, does not matter: payloads
that differ in nothing else load or do not load together, and into graphs that differ only in the handles of
what was added.
-/

open Relation

open List (Forall₂)

namespace ArgumentDiagram

/-- Two entries that differ at most in the order of their sources. -/
def RelationEntry.Alike (entry entry' : RelationEntry) : Prop :=
  ∃ sources, sources.Perm entry.sources ∧ entry' = { entry with sources := sources }

theorem RelationEntry.Alike.id {entry entry' : RelationEntry} (h : entry.Alike entry') :
    entry'.id = entry.id := by
  obtain ⟨_, -, rfl⟩ := h
  rfl

theorem RelationEntry.Alike.sources_ne_nil {entry entry' : RelationEntry} (h : entry.Alike entry') :
    entry'.sources ≠ [] ↔ entry.sources ≠ [] := by
  obtain ⟨_, hperm, rfl⟩ := h
  rw [← List.length_pos_iff, ← List.length_pos_iff, hperm.length_eq]

namespace Payload

/-- Two payloads that differ at most in the order of their relations and of the sources of each relation. -/
structure Shuffled (payload payload' : Payload) : Prop where
  claims : payload'.claims = payload.claims
  relations : ∃ alike, Forall₂ RelationEntry.Alike payload.relations alike ∧ alike.Perm payload'.relations

variable {α : Type} [Scalar α] {payload payload' : Payload} {entry entry' : RelationEntry}

theorem Shuffled.exists_alike (h : payload.Shuffled payload') (hmem : entry ∈ payload.relations) :
    ∃ entry' ∈ payload'.relations, entry.Alike entry' := by
  obtain ⟨alike, halike, hperm⟩ := h.relations
  obtain ⟨entry', hmem', h⟩ := Outcome.exists_of_forall₂ halike hmem
  exact ⟨entry', hperm.mem_iff.1 hmem', h⟩

theorem Shuffled.exists_alike_of_mem (h : payload.Shuffled payload') (hmem : entry' ∈ payload'.relations) :
    ∃ entry ∈ payload.relations, entry.Alike entry' := by
  obtain ⟨alike, halike, hperm⟩ := h.relations
  exact Outcome.exists_of_forall₂ halike.flip (hperm.mem_iff.2 hmem)

theorem Shuffled.declares (h : payload.Shuffled payload') {key : PayloadId} :
    payload'.Declares key ↔ payload.Declares key := by
  rw [Declares, Declares, h.claims]

theorem Shuffled.nodup (h : payload.Shuffled payload') (hids : (payload.relations.map (·.id)).Nodup) :
    (payload'.relations.map (·.id)).Nodup := by
  obtain ⟨alike, halike, hperm⟩ := h.relations
  have hsame : payload.relations.map (·.id) = alike.map (·.id) := by
    refine List.forall₂_eq_eq_eq ▸ List.forall₂_map_left_iff.2 (List.forall₂_map_right_iff.2 ?_)
    exact halike.imp fun _ _ h => h.id.symm
  exact (hperm.map _).nodup_iff.1 (hsame ▸ hids)

theorem Shuffled.symm (h : payload.Shuffled payload') : payload'.Shuffled payload := by
  obtain ⟨alike, halike, hperm⟩ := h.relations
  have hback : Forall₂ RelationEntry.Alike alike payload.relations :=
    halike.flip.imp fun entry' entry ⟨sources, hsources, heq⟩ =>
      ⟨entry.sources, heq ▸ hsources.symm, by rw [heq]⟩
  obtain ⟨alike', halike', hperm'⟩ := List.perm_comp_forall₂ hperm.symm hback
  exact ⟨h.claims.symm, alike', halike', hperm'⟩

/-- A chain of targets leads from alike entries to alike ones. -/
theorem Shuffled.exists_chain (h : payload.Shuffled payload') {last : RelationEntry}
    (hchain : TransGen payload'.Follows entry' last) (hmem : entry ∈ payload.relations)
    (halike : entry.Alike entry') :
    ∃ other ∈ payload.relations, other.Alike last ∧ TransGen payload.Follows entry other := by
  have hstep : ∀ {first first' next'}, first ∈ payload.relations → first.Alike first' →
      payload'.Follows first' next' → ∃ next, next.Alike next' ∧ payload.Follows first next := by
    rintro first _ next' hfirst ⟨_, -, rfl⟩ ⟨-, hnext', hcls, hid⟩
    obtain ⟨next, hnext, hlike⟩ := h.exists_alike_of_mem hnext'
    refine ⟨next, hlike, hfirst, hnext, hcls, ?_⟩
    obtain ⟨_, -, rfl⟩ := hlike
    exact hid
  induction hchain with
  | single hfollows =>
      obtain ⟨other, hlike, hfollows⟩ := hstep hmem halike hfollows
      exact ⟨other, hfollows.2.1, hlike, .single hfollows⟩
  | tail _ hfollows ih =>
      obtain ⟨middle, hmiddle, hlike, hbefore⟩ := ih
      obtain ⟨other, hlike, hfollows⟩ := hstep hmiddle hlike hfollows
      exact ⟨other, hfollows.2.1, hlike, hbefore.tail hfollows⟩

theorem Resolvable.shuffle (hp : payload.Resolvable) (h : payload.Shuffled payload')
    (hids : (payload.relations.map (·.id)).Nodup) : payload'.Resolvable := by
  refine ⟨fun entry' hmem => ?_, fun entry' hloop => ?_⟩
  · obtain ⟨entry, hentry, sources, hperm, rfl⟩ := h.exists_alike_of_mem hmem
    obtain ⟨hsources, htarget⟩ := hp.resolves entry hentry
    refine ⟨fun ref href => ?_, ?_⟩
    · rw [h.declares]
      exact hsources ref (hperm.mem_iff.1 href)
    · rw [h.declares]
      refine htarget.imp_right fun ⟨hcls, other, hother, hid, hne⟩ => ⟨hcls, ?_⟩
      obtain ⟨other', hother', halike⟩ := h.exists_alike hother
      exact ⟨other', hother', halike.id.trans hid, halike.sources_ne_nil.2 hne⟩
  · obtain ⟨_, ⟨hmem, -⟩, -⟩ := TransGen.head'_iff.1 hloop
    obtain ⟨entry, hentry, halike⟩ := h.exists_alike_of_mem hmem
    obtain ⟨other, hother, halike', hchain⟩ := h.exists_chain hloop hentry halike
    obtain rfl := List.inj_on_of_nodup_map hids hother hentry (halike'.id.symm.trans halike.id)
    exact hp.acyclic other hchain

section Block

variable {g₁ g₂ : Graph α} {l₁ l₂ : Loaded} {ρ : Renaming} {block block' : Block}

/-- The names of one payload, renamed. -/
structure CarriesNames (ρ : Renaming) (l₁ l₂ : Loaded) : Prop where
  claims : ∀ key, l₂.claims.get? key = (l₁.claims.get? key).map ρ.claims
  relations : ∀ key, l₂.relations.get? key = (l₁.relations.get? key).map ρ.relations

theorem CarriesNames.source (h : CarriesNames ρ l₁ l₂) {ref : Reference} {id : ClaimId}
    (hsource : l₁.source ref = .ok id) : l₂.source ref = .ok (ρ.claims id) := by
  rw [Loaded.source_eq_ok] at hsource ⊢
  rw [h.claims, hsource.2]
  exact ⟨hsource.1, rfl⟩

theorem CarriesNames.target (h : CarriesNames ρ l₁ l₂) {ref : Reference} {entity : Entity}
    (htarget : l₁.target ref = .ok entity) : l₂.target ref = .ok (ρ.entity entity) := by
  rw [Loaded.target_eq_ok] at htarget ⊢
  rcases htarget with ⟨hcls, id, hget, rfl⟩ | ⟨hcls, id, hget, rfl⟩
  · exact .inl ⟨hcls, _, by rw [h.claims, hget, Option.map_some], rfl⟩
  · exact .inr ⟨hcls, _, by rw [h.relations, hget, Option.map_some], rfl⟩

def Block.rename (ρ : Renaming) (block : Block) : Block :=
  ⟨block.claims.map ρ.claims, block.relations.map ρ.relations⟩

/-- How much stands for an entry depends on the number of its sources alone. -/
theorem AddedFor.lengths (h : AddedFor g₁ l₁ entry block) :
    block.claims.length = (if 2 ≤ entry.sources.length then 1 else 0) ∧
    block.relations.length =
      (if 2 ≤ entry.sources.length then entry.sources.length + 1 else entry.sources.length) := by
  cases h with
  | nothing hsources => simp [hsources]
  | single hsources => simp [hsources]
  | joined hmany hperm _ hsources _ _ hfeeders =>
      simp [hmany, hfeeders.length_eq, ← hsources.length_eq, hperm.length_eq]

/-- The last relation that stands for an entry has its name. -/
theorem AddedFor.exists_last (h : AddedFor g₁ l₁ entry block) (hsources : entry.sources ≠ []) :
    ∃ feeders id, block.relations = feeders ++ [id] ∧ l₁.relations.get? entry.id = some id := by
  cases h with
  | nothing hnil => exact absurd hnil hsources
  | single _ _ _ hid => exact ⟨[], _, rfl, hid⟩
  | joined _ _ _ _ _ _ _ hid => exact ⟨_, _, rfl, hid⟩

/-- Sources in the order of their names are in one order, for names tell them apart. -/
theorem eq_of_ordered {ordered ordered' : List Reference} {sources : List ClaimId}
    (hperm : ordered.Perm ordered')
    (hsources : Forall₂ (fun ref id => l₁.source ref = .ok id) ordered sources)
    (hsorted : ordered.Pairwise fun a b => KeyOrder.before b.id a.id = false)
    (hsorted' : ordered'.Pairwise fun a b => KeyOrder.before b.id a.id = false) : ordered = ordered' := by
  have hcls : ∀ ref ∈ ordered, ref.cls = "claim" := by
    intro ref href
    obtain ⟨id, -, hsource⟩ := Outcome.exists_of_forall₂ hsources href
    exact (Loaded.source_eq_ok.1 hsource).1
  refine hperm.eq_of_pairwise (fun a b ha hb hab hba => ?_) hsorted hsorted'
  have hid := KeyOrder.eq_of_not_before hba hab
  have hclsa := hcls a ha
  have hclsb := hcls b (hperm.mem_iff.2 hb)
  cases a
  cases b
  simp_all

/-- The relations of alike entries differ in the handles only. -/
theorem AddedFor.relation?_rename (h₁ : AddedFor g₁ l₁ entry block) (h₂ : AddedFor g₂ l₂ entry' block')
    (hblock : block' = block.rename ρ) (halike : entry.Alike entry') (hnames : CarriesNames ρ l₁ l₂)
    {id : RelationId} (hid : id ∈ block.relations) :
    g₂.relation? (ρ.relations id) = (g₁.relation? id).map ρ.relation := by
  obtain ⟨_, hshuffled, rfl⟩ := halike
  cases h₁ with
  | nothing => simp at hid
  | single hsources hsource htarget _ hr =>
      obtain rfl := List.mem_singleton.1 hid
      cases h₂ with
      | nothing => simp [Block.rename] at hblock
      | joined => simp [Block.rename] at hblock
      | single hsources' hsource' htarget' _ hr' =>
          obtain ⟨-, hrelations⟩ := Block.mk.inj hblock
          obtain rfl := List.singleton_inj.1 hrelations
          dsimp only at hsources'
          rw [hsources, hsources'] at hshuffled
          obtain rfl := List.singleton_perm_singleton.1 hshuffled
          rw [hnames.source hsource] at hsource'
          rw [hnames.target htarget] at htarget'
          rw [hr, hr', ← Except.ok.inj hsource', ← Except.ok.inj htarget']
          rfl
  | @joined ordered sources _ _ _ _ _ hperm hsorted hsources htarget _ hfeeders _ hr _ =>
      cases h₂ with
      | nothing => simp [Block.rename] at hblock
      | single => simp [Block.rename] at hblock
      | joined _ hperm' hsorted' hsources' htarget' _ hfeeders' _ hr' _ =>
          obtain ⟨hclaims, hrelations⟩ := Block.mk.inj hblock
          obtain rfl := List.singleton_inj.1 hclaims
          rw [List.map_append] at hrelations
          obtain ⟨rfl, hlast⟩ := List.append_inj' hrelations rfl
          obtain rfl := List.singleton_inj.1 hlast
          -- Both entries have the same sources in the same order.
          have hordered := hperm.trans (hshuffled.symm.trans hperm'.symm)
          obtain rfl := eq_of_ordered hordered hsources hsorted hsorted'
          have hrenamed : Forall₂ (fun ref id => l₂.source ref = .ok id) ordered (sources.map ρ.claims) :=
            List.forall₂_map_right_iff.2 (hsources.imp fun _ _ => hnames.source)
          rw [← Outcome.mapM_eq_ok] at hrenamed hsources'
          obtain rfl := Except.ok.inj (hrenamed.symm.trans hsources')
          rw [hnames.target htarget] at htarget'
          rcases List.mem_append.1 hid with hid | hid
          · have hboth := hfeeders.mp (fun _ _ => And.intro)
              (List.forall₂_map_left_iff.1 (List.forall₂_map_right_iff.1 hfeeders'))
            obtain ⟨source, -, hr, hr'⟩ := Outcome.exists_of_forall₂ hboth hid
            rw [hr, hr']
            rfl
          · obtain rfl := List.mem_singleton.1 hid
            rw [hr, hr', ← Except.ok.inj htarget']
            rfl

theorem AddedFor.lengths_eq (h₁ : AddedFor g₁ l₁ entry block) (h₂ : AddedFor g₂ l₂ entry' block')
    (halike : entry.Alike entry') :
    block.claims.length = block'.claims.length ∧ block.relations.length = block'.relations.length := by
  obtain ⟨_, hperm, rfl⟩ := halike
  simp [h₁.lengths, h₂.lengths, hperm.length_eq]

end Block

theorem lengths_flatMap {blocks blocks' : List Block}
    (hlengths : Forall₂ (fun b b' => b.claims.length = b'.claims.length ∧
      b.relations.length = b'.relations.length) blocks blocks') :
    (blocks.flatMap (·.claims)).length = (blocks'.flatMap (·.claims)).length ∧
    (blocks.flatMap (·.relations)).length = (blocks'.flatMap (·.relations)).length := by
  induction hlengths with
  | nil => exact ⟨rfl, rfl⟩
  | cons hlength _ ih => simp only [List.flatMap_cons, List.length_append, hlength, ih, and_self]

/-- Blocks of the same lengths are matched one by one. -/
theorem eq_map_rename (ρ : Renaming) {blocks blocks' : List Block}
    (hlengths : Forall₂ (fun b b' => b.claims.length = b'.claims.length ∧
      b.relations.length = b'.relations.length) blocks blocks')
    (hclaims : (blocks.flatMap (·.claims)).map ρ.claims = blocks'.flatMap (·.claims))
    (hrelations : (blocks.flatMap (·.relations)).map ρ.relations = blocks'.flatMap (·.relations)) :
    blocks' = blocks.map (Block.rename ρ) := by
  induction hlengths with
  | nil => rfl
  | @cons block block' rest rest' hlength _ ih =>
      simp only [List.flatMap_cons, List.map_append] at hclaims hrelations
      obtain ⟨hfirst, hclaims⟩ := List.append_inj hclaims (by rw [List.length_map, hlength.1])
      obtain ⟨hfirst', hrelations⟩ := List.append_inj hrelations (by rw [List.length_map, hlength.2])
      rw [List.map_cons, ih hclaims hrelations, Block.rename, hfirst, hfirst']

/-! ### The two graphs -/

section Load

variable {g g₁ g₂ : Graph α} {l₁ l₂ : Loaded} {start : Progress α} {ρ : Renaming} {blocks : List Block}

/-- A block stands for an entry, and the renamed block for an alike entry in another graph. -/
def Paired (ρ : Renaming) (g₁ : Graph α) (l₁ : Loaded) (g₂ : Graph α) (l₂ : Loaded)
    (entry : RelationEntry) (block : Block) : Prop :=
  AddedFor g₁ l₁ entry block ∧ ∃ entry', entry.Alike entry' ∧ AddedFor g₂ l₂ entry' (block.rename ρ)

/-- A renaming that matches what two graphs have on top of a common start, block by block. -/
structure Matching (start : Progress α) (entries : List RelationEntry) (ρ : Renaming) (g₁ : Graph α)
    (l₁ : Loaded) (g₂ : Graph α) (l₂ : Loaded) : Prop where
  nextClaim : g₂.nextClaim = g₁.nextClaim
  nextRelation : g₂.nextRelation = g₁.nextRelation
  claims_fixed : ∀ id ∉ start.graph.claimsSince g₁, ρ.claims id = id
  relations_fixed : ∀ id ∉ start.graph.relationsSince g₁, ρ.relations id = id
  paired : ∃ blocks, Forall₂ (Paired ρ g₁ l₁ g₂ l₂) entries blocks ∧
    (blocks.flatMap (·.claims)).Perm (start.graph.claimsSince g₁) ∧
    (blocks.flatMap (·.relations)).Perm (start.graph.relationsSince g₁)

theorem exists_matching (h : payload.Shuffled payload') (h₁ : AddedTo start payload.relations l₁ g₁)
    (h₂ : AddedTo start payload'.relations l₂ g₂) :
    ∃ ρ, Matching start payload.relations ρ g₁ l₁ g₂ l₂ := by
  obtain ⟨alike, halike, hperm⟩ := h.relations
  obtain ⟨blocks₁, hblocks₁, hclaims₁, hrelations₁⟩ := h₁.blocks
  obtain ⟨unsorted, hunsorted, hclaims₂, hrelations₂⟩ := h₂.blocks
  -- The blocks of the second graph in the order of the first payload.
  obtain ⟨blocks₂, hblocks₂, hsame⟩ := List.perm_comp_forall₂ hperm hunsorted
  replace hclaims₂ := (hsame.flatMap_right _).trans hclaims₂
  replace hrelations₂ := (hsame.flatMap_right _).trans hrelations₂
  have hpairs := Outcome.forall₂_comp halike hblocks₂
  have hlengths := (Outcome.forall₂_comp hblocks₁.flip hpairs).imp
    fun _ _ ⟨_, hadded₁, _, hlike, hadded₂⟩ => hadded₁.lengths_eq hadded₂ hlike
  obtain ⟨hlengthClaims, hlengthRelations⟩ := lengths_flatMap hlengths
  rw [hclaims₁.length_eq, hclaims₂.length_eq, Graph.length_claimsSince, Graph.length_claimsSince]
    at hlengthClaims
  rw [hrelations₁.length_eq, hrelations₂.length_eq, Graph.length_relationsSince,
    Graph.length_relationsSince] at hlengthRelations
  have hnextClaim : g₂.nextClaim = g₁.nextClaim := by
    have := h₁.grows.nextClaim
    have := h₂.grows.nextClaim
    omega
  have hnextRelation : g₂.nextRelation = g₁.nextRelation := by
    have := h₁.grows.nextRelation
    have := h₂.grows.nextRelation
    omega
  rw [Graph.claimsSince, hnextClaim, ← Graph.claimsSince] at hclaims₂
  rw [Graph.relationsSince, hnextRelation, ← Graph.relationsSince] at hrelations₂
  obtain ⟨σ, hσ, hσfixed⟩ := Renaming.exists_map_eq (hclaims₁.trans hclaims₂.symm)
    (hclaims₁.nodup_iff.2 (Graph.nodup_claimsSince ..))
  obtain ⟨τ, hτ, hτfixed⟩ := Renaming.exists_map_eq (hrelations₁.trans hrelations₂.symm)
    (hrelations₁.nodup_iff.2 (Graph.nodup_relationsSince ..))
  obtain rfl := eq_map_rename ⟨σ, τ⟩ hlengths hσ hτ
  have hpaired := hblocks₁.mp (fun _ _ => And.intro) (List.forall₂_map_right_iff.1 hpairs)
  refine ⟨⟨σ, τ⟩, hnextClaim, hnextRelation, fun id hid => hσfixed id ?_, fun id hid => hτfixed id ?_,
    blocks₁, hpaired, hclaims₁, hrelations₁⟩
  · rwa [hclaims₁.mem_iff]
  · rwa [hrelations₁.mem_iff]

theorem Matching.fixed (hmatch : Matching start payload.relations ρ g₁ l₁ g₂ l₂) {entity : Entity}
    (hold : start.graph.Issued entity) : ρ.entity entity = entity := by
  cases entity with
  | claim id =>
      have hid : id ∉ start.graph.claimsSince g₁ := fun hid =>
        Nat.not_le_of_lt hold (Graph.mem_claimsSince.1 hid).1
      rw [Renaming.entity, hmatch.claims_fixed id hid]
  | relation id =>
      have hid : id ∉ start.graph.relationsSince g₁ := fun hid =>
        Nat.not_le_of_lt hold (Graph.mem_relationsSince.1 hid).1
      rw [Renaming.entity, hmatch.relations_fixed id hid]

theorem Matching.carriesNames (hmatch : Matching start payload.relations ρ g₁ l₁ g₂ l₂)
    (hstart : start.GrownFrom g) (h : payload.Shuffled payload')
    (h₁ : AddedTo start payload.relations l₁ g₁) (h₂ : AddedTo start payload'.relations l₂ g₂) :
    CarriesNames ρ l₁ l₂ := by
  obtain ⟨blocks, hpaired, -⟩ := hmatch.paired
  refine ⟨fun key => ?_, fun key => ?_⟩
  · rw [h₁.claims, h₂.claims]
    cases hget : start.loaded.claims.get? key with
    | none => rfl
    | some id =>
        have hfixed := hmatch.fixed (hstart.wellFormed.issued (hstart.claims_live hget))
        rw [Option.map_some, Entity.claim.inj hfixed]
  · by_cases hnamed : ∃ entry ∈ payload.relations, entry.id = key ∧ entry.sources ≠ []
    · obtain ⟨entry, hentry, rfl, hsources⟩ := hnamed
      obtain ⟨block, -, hadded₁, entry', halike, hadded₂⟩ := Outcome.exists_of_forall₂ hpaired hentry
      obtain ⟨feeders₁, id₁, heq₁, hid₁⟩ := hadded₁.exists_last hsources
      obtain ⟨feeders₂, id₂, heq₂, hid₂⟩ := hadded₂.exists_last (halike.sources_ne_nil.2 hsources)
      have hlast : ρ.relations id₁ = id₂ := by
        simpa [Block.rename, heq₁] using congrArg List.getLast? heq₂
      rw [hid₁, ← halike.id, hid₂, Option.map_some, hlast]
    · have hnone₁ : l₁.relations.get? key = none :=
        Option.eq_none_iff_forall_ne_some.2 fun id hid => hnamed ((h₁.named key).1 ⟨id, hid⟩)
      have hnone₂ : l₂.relations.get? key = none := by
        refine Option.eq_none_iff_forall_ne_some.2 fun id hid => hnamed ?_
        obtain ⟨entry', hentry', hkey, hsources⟩ := (h₂.named key).1 ⟨id, hid⟩
        obtain ⟨entry, hentry, halike⟩ := h.exists_alike_of_mem hentry'
        exact ⟨entry, hentry, halike.id.symm.trans hkey, halike.sources_ne_nil.1 hsources⟩
      rw [hnone₁, hnone₂, Option.map_none]

/-- What was there before is its own image. -/
theorem Matching.map_start (hmatch : Matching start payload.relations ρ g₁ l₁ g₂ l₂)
    (hwf : start.graph.WellFormed) :
    (∀ id, (start.graph.claim? id).map ρ.claim = start.graph.claim? id) ∧
    ∀ id, (start.graph.relation? id).map ρ.relation = start.graph.relation? id := by
  refine ⟨fun id => ?_, fun id => ?_⟩
  · cases hc : start.graph.claim? id with
    | none => rfl
    | some c =>
        have hid := hmatch.fixed (hwf.issued (Graph.contains_claim_iff.2 ⟨c, hc⟩))
        obtain rfl := hwf.claim_key hc
        rw [Option.map_some, Renaming.claim, Entity.claim.inj hid]
  · cases hr : start.graph.relation? id with
    | none => rfl
    | some r =>
        have hid := hmatch.fixed (hwf.issued (Graph.contains_relation_iff.2 ⟨r, hr⟩))
        have hsource := hmatch.fixed (hwf.issued (hwf.source_live hr))
        have htarget := hmatch.fixed (hwf.issued (hwf.target_live hr))
        obtain rfl := hwf.relation_key hr
        rw [Option.map_some, Renaming.relation, Entity.relation.inj hid, Entity.claim.inj hsource, htarget]

theorem Matching.carries (hmatch : Matching start payload.relations ρ g₁ l₁ g₂ l₂)
    (hnames : CarriesNames ρ l₁ l₂) (hwf : start.graph.WellFormed) (hwf₁ : g₁.WellFormed)
    (hwf₂ : g₂.WellFormed) (h₁ : start.graph.Grows g₁) (h₂ : start.graph.Grows g₂) : ρ.Carries g₁ g₂ := by
  obtain ⟨hclaimStart, hrelationStart⟩ := hmatch.map_start hwf
  obtain ⟨blocks, hpaired, hclaims, hrelations⟩ := hmatch.paired
  refine ⟨fun id => ?_, fun id => ?_⟩
  · by_cases hid : id ∈ start.graph.claimsSince g₁
    · obtain ⟨block, hblock, hmem⟩ := List.mem_flatMap.1 (hclaims.mem_iff.2 hid)
      obtain ⟨_, -, hadded₁, _, -, hadded₂⟩ := Outcome.exists_of_forall₂ hpaired.flip hblock
      rw [hadded₁.claim? hmem, hadded₂.claim? (List.mem_map_of_mem hmem)]
      rfl
    · have hid₂ : id ∉ start.graph.claimsSince g₂ := by rwa [Graph.claimsSince, hmatch.nextClaim]
      rw [hmatch.claims_fixed id hid, h₁.claim?_of_notMem hwf₁ hid, h₂.claim?_of_notMem hwf₂ hid₂, hclaimStart]
  · by_cases hid : id ∈ start.graph.relationsSince g₁
    · obtain ⟨block, hblock, hmem⟩ := List.mem_flatMap.1 (hrelations.mem_iff.2 hid)
      obtain ⟨_, -, hadded₁, _, halike, hadded₂⟩ := Outcome.exists_of_forall₂ hpaired.flip hblock
      exact hadded₁.relation?_rename hadded₂ rfl halike hnames hmem
    · have hid₂ : id ∉ start.graph.relationsSince g₂ := by rwa [Graph.relationsSince, hmatch.nextRelation]
      rw [hmatch.relations_fixed id hid, h₁.relation?_of_notMem hwf₁ hid, h₂.relation?_of_notMem hwf₂ hid₂,
        hrelationStart]

theorem exists_load_shuffled_iff (hg : g.WellFormed) (hids : (payload.relations.map (·.id)).Nodup)
    (h : payload.Shuffled payload') :
    (∃ result, payload'.load g = .ok result) ↔ ∃ result, payload.load g = .ok result := by
  rw [exists_load_iff hg hids, exists_load_iff hg (h.nodup hids)]
  exact ⟨fun hp => hp.shuffle h.symm (h.nodup hids), fun hp => hp.shuffle h hids⟩

/-- A payload whose relations have names of their own loads into a graph exactly if it does so when its
relations, and the sources of each of them, are given in another order. What comes out is the same but for
the handles that were given out, and the names stand for the same things. -/
theorem load_shuffled (hg : g.Reachable) (hids : (payload.relations.map (·.id)).Nodup)
    (h : payload.Shuffled payload') :
    ((∃ result, payload'.load g = .ok result) ↔ ∃ result, payload.load g = .ok result) ∧
    ∀ l₁ g₁ l₂ g₂, payload.load g = .ok (l₁, g₁) → payload'.load g = .ok (l₂, g₂) →
      g₂.nextClaim = g₁.nextClaim ∧ g₂.nextRelation = g₁.nextRelation ∧
      ∃ ρ : Renaming, (∀ id ∉ g.claimsSince g₁, ρ.claims id = id) ∧
        (∀ id ∉ g.relationsSince g₁, ρ.relations id = id) ∧ CarriesNames ρ l₁ l₂ ∧ ρ.Carries g₁ g₂ := by
  refine ⟨exists_load_shuffled_iff hg.wellFormed hids h, fun l₁ g₁ l₂ g₂ hload₁ hload₂ => ?_⟩
  have hwf := hg.wellFormed
  have hstart : (payload.start g).GrownFrom g := grownFrom_start hwf
  have h₁ := addedTo_of_load hwf hload₁
  have h₂ := addedTo_of_load hwf hload₂
  rw [start, h.claims, ← start] at h₂
  obtain ⟨ρ, hmatch⟩ := exists_matching h h₁ h₂
  have hnames := hmatch.carriesNames hstart h h₁ h₂
  have hcarries := hmatch.carries hnames hstart.wellFormed (load_grows hwf hload₁).1 (load_grows hwf hload₂).1
    h₁.grows h₂.grows
  refine ⟨hmatch.nextClaim, hmatch.nextRelation, ρ, fun id hid => hmatch.claims_fixed id fun hnew => ?_,
    fun id hid => hmatch.relations_fixed id fun hnew => ?_, hnames, hcarries⟩
  · obtain ⟨hle, hlt⟩ := Graph.mem_claimsSince.1 hnew
    exact hid (Graph.mem_claimsSince.2 ⟨hstart.grows.nextClaim.trans hle, hlt⟩)
  · obtain ⟨hle, hlt⟩ := Graph.mem_relationsSince.1 hnew
    exact hid (Graph.mem_relationsSince.2 ⟨hstart.grows.nextRelation.trans hle, hlt⟩)

/-- The relations of the forward reference in another order, as are the sources that one of them joins. -/
def backward : Payload where
  claims := forward.claims
  relations :=
    [⟨.number 11, [⟨"claim", .number 1⟩, ⟨"claim", .number 2⟩], ⟨"claim", .number 1⟩, some "support", true⟩,
    ⟨.number 10, [⟨"claim", .number 2⟩], ⟨"relation", .number 11⟩, some "attack", false⟩]

theorem shuffled_backward : forward.Shuffled backward := by
  refine ⟨rfl, backward.relations.reverse, .cons ⟨_, .refl _, rfl⟩ (.cons ⟨_, .swap .., rfl⟩ .nil), ?_⟩
  exact List.reverse_perm _

theorem load_shuffled_of_backward :
    (Graph.empty.after [.addClaim "z" .plain] : Graph Float32).Reachable ∧
    (forward.relations.map (·.id)).Nodup ∧ forward.Shuffled backward ∧
    ∃ l₁ g₁ l₂ g₂, forward.load (Graph.empty.after [.addClaim "z" .plain] : Graph Float32) = .ok (l₁, g₁) ∧
      backward.load (Graph.empty.after [.addClaim "z" .plain] : Graph Float32) = .ok (l₂, g₂) ∧
      ∃ ρ, CarriesNames ρ l₁ l₂ ∧ ρ.Carries g₁ g₂ := by
  have hg : (Graph.empty.after [.addClaim "z" .plain] : Graph Float32).Reachable := ⟨_, rfl⟩
  have hids : (forward.relations.map (·.id)).Nodup := by decide
  obtain ⟨hloads, hsame⟩ := load_shuffled hg hids shuffled_backward
  have hforward := (exists_load_iff hg.wellFormed hids).2 resolvable_forward
  obtain ⟨⟨l₂, g₂⟩, hload₂⟩ := hloads.2 hforward
  obtain ⟨⟨l₁, g₁⟩, hload₁⟩ := hforward
  obtain ⟨-, -, ρ, -, -, hnames, hcarries⟩ := hsame l₁ g₁ l₂ g₂ hload₁ hload₂
  exact ⟨hg, hids, shuffled_backward, l₁, g₁, l₂, g₂, hload₁, hload₂, ρ, hnames, hcarries⟩

end Load

end Payload

end ArgumentDiagram
