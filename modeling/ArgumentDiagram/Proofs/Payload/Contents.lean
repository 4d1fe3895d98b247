import ArgumentDiagram.Proofs.Graph.Additions
import ArgumentDiagram.Proofs.Graph.Reachable
import ArgumentDiagram.Proofs.Payload.Resolvable

/-!
What a payload adds. Each entry adds a block of entities under handles that follow on each other, and the
blocks together with the claims are all that is new. Main statement: a payload loads exactly if it can be
resolved, then the graph holds what the entries say, and else the graph stays as it is.
-/

open Relation

open List (Forall₂)

namespace ArgumentDiagram

namespace Payload

variable {α : Type} [Scalar α] {payload : Payload} {g g' : Graph α} {loaded loaded' : Loaded}
  {p q : Progress α} {entry : RelationEntry}

/-- The handles of what stands for one entry. -/
structure Block where
  claims : List ClaimId
  relations : List RelationId

/-- What stands for an entry: nothing without sources, a relation from one source, and for several a claim
that joins them, neutral relations into it in the order of the names of the sources, and a relation from
it. -/
inductive AddedFor (g : Graph α) (loaded : Loaded) (entry : RelationEntry) : Block → Prop
  | nothing : entry.sources = [] → AddedFor g loaded entry ⟨[], []⟩
  | single {ref : Reference} {source : ClaimId} {target : Entity} {id : RelationId} :
      entry.sources = [ref] → loaded.source ref = .ok source → loaded.target entry.target = .ok target →
      loaded.relations.get? entry.id = some id →
      g.relation? id = some ⟨id, source, target, kindOf entry, .ofAssumption entry.assumption⟩ →
      AddedFor g loaded entry ⟨[], [id]⟩
  | joined {ordered : List Reference} {sources : List ClaimId} {target : Entity} {joint : ClaimId}
      {feeders : List RelationId} {id : RelationId} :
      2 ≤ entry.sources.length → ordered.Perm entry.sources →
      (ordered.Pairwise fun a b => KeyOrder.before b.id a.id = false) →
      Forall₂ (fun ref source => loaded.source ref = .ok source) ordered sources →
      loaded.target entry.target = .ok target →
      g.claim? joint = some (.create joint Graph.joinText .plain) →
      Forall₂ (fun feeder source => g.relation? feeder =
        some ⟨feeder, source, .claim joint, none, .ofAssumption entry.assumption⟩) feeders sources →
      loaded.relations.get? entry.id = some id →
      g.relation? id = some ⟨id, joint, target, kindOf entry,
        { Metadata.ofAssumption entry.assumption with merged := true }⟩ →
      ((feeders ++ [id]).Pairwise fun a b => a.index < b.index) →
      AddedFor g loaded entry ⟨[joint], feeders ++ [id]⟩

theorem AddedFor.mono (hgrows : g.Grows g') (hextends : loaded.Extends loaded') {block : Block}
    (h : AddedFor g loaded entry block) : AddedFor g' loaded' entry block := by
  cases h with
  | nothing hnil => exact .nothing hnil
  | single hsources hsource htarget hid hr =>
      exact .single hsources (hextends.source hsource) (hextends.target htarget) (hextends.relations hid)
        (hgrows.relation? hr)
  | joined hlength hperm hsorted hsources htarget hjoint hfeeders hid hr hascending =>
      exact .joined hlength hperm hsorted (hsources.imp fun _ _ => hextends.source)
        (hextends.target htarget) (hgrows.claim? hjoint) (hfeeders.imp fun _ _ => hgrows.relation?)
        (hextends.relations hid) (hgrows.relation? hr) hascending

theorem AddedFor.live {block : Block} (h : AddedFor g loaded entry block) :
    (∀ id ∈ block.claims, g.contains (.claim id)) ∧ ∀ id ∈ block.relations, g.contains (.relation id) := by
  cases h with
  | nothing => simp
  | single _ _ _ _ hr => simpa using Graph.contains_relation_iff.2 ⟨_, hr⟩
  | joined _ _ _ _ _ hjoint hfeeders _ hr _ =>
      refine ⟨by simpa using Graph.contains_claim_iff.2 ⟨_, hjoint⟩, fun id hid => ?_⟩
      rcases List.mem_append.1 hid with hid | hid
      · obtain ⟨_, -, hr⟩ := Outcome.exists_of_forall₂ hfeeders hid
        exact Graph.contains_relation_iff.2 ⟨_, hr⟩
      · obtain rfl := List.mem_singleton.1 hid
        exact Graph.contains_relation_iff.2 ⟨_, hr⟩

theorem AddedFor.claim? {block : Block} (h : AddedFor g loaded entry block) {id : ClaimId}
    (hid : id ∈ block.claims) :
    g.claim? id = some (.create id Graph.joinText .plain) := by
  cases h with
  | joined _ _ _ _ _ hjoint =>
      obtain rfl := List.mem_singleton.1 hid
      exact hjoint
  | _ => simp at hid

theorem pairwise_sortedSources (entry : RelationEntry) :
    (sortedSources entry).Pairwise fun a b => KeyOrder.before b.id a.id = false := by
  have hsorted : (sortedSources entry).Pairwise fun a b => (!KeyOrder.before b.id a.id) = true := by
    refine List.pairwise_mergeSort (fun a b c hab hbc => ?_) (fun a b => ?_) entry.sources
    · simp only [Bool.not_eq_true'] at hab hbc ⊢
      exact KeyOrder.not_before_trans hab hbc
    · cases h : KeyOrder.before b.id a.id with
      | false => rfl
      | true => simp [KeyOrder.asymm h]
  exact hsorted.imp fun h => by simpa using h

theorem addedFor_addRelation (hp : p.GrownFrom g) (hadd : addRelation p entry = .ok q) :
    AddedFor q.graph q.loaded entry
      ⟨p.graph.claimsSince q.graph, p.graph.relationsSince q.graph⟩ := by
  obtain ⟨sources, target, added, graph, hsources, htarget, -, hgraph, rfl⟩ := addRelation_eq_ok.1 hadd
  have hlength := hsources.length_eq.symm.trans (length_sortedSources entry)
  have hperm : (sortedSources entry).Perm entry.sources := List.mergeSort_perm ..
  obtain ⟨hextends, -⟩ := get?_addRelation hadd
  replace htarget := hextends.target htarget
  replace hsources := hsources.imp fun _ _ => hextends.source
  rcases Graph.addRelation_cases hgraph with ⟨rfl, rfl, rfl⟩ | ⟨source, rfl, -, -, rfl, rfl⟩ |
    ⟨hmany, hlive, -, rfl, rfl⟩
  · have hnil := List.length_eq_zero_iff.1 hlength.symm
    rw [Graph.claimsSince_self, Graph.relationsSince_self]
    exact .nothing hnil
  · obtain ⟨ref, _, hsource, hnil, hone⟩ := List.forall₂_cons_right_iff.1 hsources
    obtain rfl := List.forall₂_nil_right_iff.1 hnil
    rw [hone, List.singleton_perm] at hperm
    rw [Graph.claimsSince_pushRelation, Graph.relationsSince_pushRelation]
    refine .single hperm.symm hsource htarget (Loaded.get?_record ..) ?_
    rw [Graph.relation?_pushRelation, if_pos rfl]
  · obtain ⟨joint, feeders, hclaims, hrelations, hjoint, hfeeders, hlast⟩ :=
      Graph.added_pushJoined hp.wellFormed hlive (kindOf entry) (.ofAssumption entry.assumption) rfl
    have hascending := hrelations ▸ Graph.ascending_relationsSince ..
    rw [hclaims, hrelations]
    exact .joined (hlength ▸ hmany) hperm (pairwise_sortedSources entry) hsources htarget hjoint hfeeders
      (Loaded.get?_record ..) hlast hascending

/-- A run adds a block for each entry, one after the other. -/
theorem blocks_of_run (hp : p.GrownFrom g) {entries : List RelationEntry}
    (hrun : addAll p entries = .ok q) : ∃ blocks : List Block,
      Forall₂ (AddedFor q.graph q.loaded) entries blocks ∧
      blocks.flatMap (·.claims) = p.graph.claimsSince q.graph ∧
      blocks.flatMap (·.relations) = p.graph.relationsSince q.graph := by
  induction entries generalizing p with
  | nil =>
      obtain rfl := addAll_nil.1 hrun
      exact ⟨[], .nil, by simp⟩
  | cons entry rest ih =>
      obtain ⟨next, hadd, hrest⟩ := addAll_cons.1 hrun
      have hnext := grownFrom_addRelation hp hadd
      have hgrows := (grownFrom_addRelation hp.self hadd).grows
      have hmore := (grownFrom_addAll hnext.self hrest).grows
      obtain ⟨blocks, hblocks, hclaims, hrelations⟩ := ih hnext hrest
      have hfirst := (addedFor_addRelation hp hadd).mono hmore (get?_addAll hrest).1
      refine ⟨⟨p.graph.claimsSince next.graph, p.graph.relationsSince next.graph⟩ :: blocks,
        .cons hfirst hblocks, ?_, ?_⟩
      · rw [List.flatMap_cons, hclaims, hgrows.claimsSince_append hmore.toLater]
      · rw [List.flatMap_cons, hrelations, hgrows.relationsSince_append hmore.toLater]

/-- What comes on top of the claims of a payload when it is loaded. -/
structure AddedTo (start : Progress α) (entries : List RelationEntry) (loaded : Loaded) (g' : Graph α) :
    Prop where
  grows : start.graph.Grows g'
  claims : loaded.claims = start.loaded.claims
  named : ∀ key, (∃ id, loaded.relations.get? key = some id) ↔
    ∃ entry ∈ entries, entry.id = key ∧ entry.sources ≠ []
  blocks : ∃ blocks : List Block,
    Forall₂ (AddedFor g' loaded) entries blocks ∧
    (blocks.flatMap (·.claims)).Perm (start.graph.claimsSince g') ∧
    (blocks.flatMap (·.relations)).Perm (start.graph.relationsSince g')

theorem addedTo_of_load (hg : g.WellFormed) (hload : payload.load g = .ok (loaded, g')) :
    AddedTo (payload.start g) payload.relations loaded g' := by
  obtain ⟨hperm, hrun⟩ := run_of_load hload
  obtain ⟨hextends, hnames⟩ := get?_addAll hrun
  obtain ⟨blocks, hblocks, hclaims, hrelations⟩ := blocks_of_run (grownFrom_start hg) hrun
  obtain ⟨blocks', hblocks', hperm'⟩ := List.perm_comp_forall₂ hperm.symm hblocks
  refine ⟨(grownFrom_addAll (grownFrom_start hg).self hrun).grows, hextends.claims, fun key => ?_,
    blocks', hblocks', hclaims ▸ hperm'.flatMap_right _, hrelations ▸ hperm'.flatMap_right _⟩
  simp [hnames, relations_start, hperm.mem_iff]

theorem next_foldl_addClaim (p : Progress α) (entries : List ClaimEntry) :
    (entries.foldl addClaim p).graph.nextClaim = p.graph.nextClaim + entries.length ∧
    (entries.foldl addClaim p).graph.nextRelation = p.graph.nextRelation := by
  induction entries generalizing p with
  | nil => exact ⟨rfl, rfl⟩
  | cons entry rest ih =>
      obtain ⟨hclaim, hrelation⟩ := ih (addClaim p entry)
      refine ⟨hclaim.trans ?_, hrelation⟩
      rw [List.length_cons, Nat.add_comm rest.length, ← Nat.add_assoc]
      rfl

theorem get?_foldl_addClaim_of_ne {p : Progress α} {entries : List ClaimEntry} {key : PayloadId}
    (hne : ∀ entry ∈ entries, entry.id ≠ key) :
    (entries.foldl addClaim p).loaded.claims.get? key = p.loaded.claims.get? key := by
  induction entries generalizing p with
  | nil => rfl
  | cons entry rest ih =>
      obtain ⟨hfirst, hrest⟩ := List.forall_mem_cons.1 hne
      exact (ih hrest).trans ((Table.get?_insert ..).trans (if_neg hfirst.symm))

/-- The claim of an entry is stored under the next handle, and the last one of a name keeps it. -/
theorem claim?_start (hg : g.WellFormed) {before after : List ClaimEntry} {entry : ClaimEntry}
    (hclaims : payload.claims = before ++ entry :: after) :
    (payload.start g).graph.claim? ⟨g.nextClaim + before.length⟩ =
      some (.create ⟨g.nextClaim + before.length⟩ entry.text
        { Metadata.ofAssumption entry.assumption with scope := entry.scope }) ∧
    ((∀ later ∈ after, later.id ≠ entry.id) →
      (payload.start g).loaded.claims.get? entry.id = some ⟨g.nextClaim + before.length⟩) := by
  have hbefore := grownFrom_foldl_addClaim (Progress.grownFrom_start hg) before
  have hafter := grownFrom_foldl_addClaim (grownFrom_addClaim hbefore entry).self after
  obtain ⟨hnext, -⟩ := next_foldl_addClaim ⟨g, .none⟩ before
  rw [start, hclaims, List.foldl_append, List.foldl_cons]
  dsimp only at hnext
  rw [← hnext]
  refine ⟨hafter.grows.claim? ?_, fun hne => ?_⟩
  · exact (Graph.claim?_addClaim ..).trans (if_pos rfl)
  · exact (get?_foldl_addClaim_of_ne hne).trans ((Table.get?_insert ..).trans (if_pos rfl))

/-! ### The whole payload -/

/-- A graph after a payload was loaded into it. -/
structure LoadedInto (payload : Payload) (g : Graph α) (loaded : Loaded) (g' : Graph α) : Prop where
  /-- All that was there is as it was. -/
  grows : g.Grows g'
  claim : ∀ {before entry after}, payload.claims = before ++ entry :: after →
    g'.claim? ⟨g.nextClaim + before.length⟩ =
      some (.create ⟨g.nextClaim + before.length⟩ entry.text
        { Metadata.ofAssumption entry.assumption with scope := entry.scope }) ∧
    ((∀ later ∈ after, later.id ≠ entry.id) →
      loaded.claims.get? entry.id = some ⟨g.nextClaim + before.length⟩)
  claim_named : ∀ key, (∃ id, loaded.claims.get? key = some id) ↔ payload.Declares key
  relation_named : ∀ key, (∃ id, loaded.relations.get? key = some id) ↔
    ∃ entry ∈ payload.relations, entry.id = key ∧ entry.sources ≠ []
  /-- The entries share out the new handles among them. -/
  blocks : ∃ blocks : List Block,
    Forall₂ (AddedFor g' loaded) payload.relations blocks ∧
    ((List.Ico g.nextClaim (g.nextClaim + payload.claims.length)).map ClaimId.mk ++
      blocks.flatMap (·.claims)).Perm (g.claimsSince g') ∧
    (blocks.flatMap (·.relations)).Perm (g.relationsSince g')
  claim_live : ∀ id, g'.contains (.claim id) ↔ g.contains (.claim id) ∨ id ∈ g.claimsSince g'
  relation_live : ∀ id, g'.contains (.relation id) ↔ g.contains (.relation id) ∨ id ∈ g.relationsSince g'

theorem claimsSince_start (payload : Payload) (g : Graph α) : g.claimsSince (payload.start g).graph =
    (List.Ico g.nextClaim (g.nextClaim + payload.claims.length)).map ClaimId.mk := by
  rw [Graph.claimsSince, start, (next_foldl_addClaim ⟨g, .none⟩ payload.claims).1]

theorem relationsSince_start (payload : Payload) (g g' : Graph α) :
    (payload.start g).graph.relationsSince g' = g.relationsSince g' := by
  rw [Graph.relationsSince, start, (next_foldl_addClaim ⟨g, .none⟩ payload.claims).2]
  rfl

theorem exists_entry_of_mem {n : Nat} {id : ClaimId}
    (hid : id ∈ (List.Ico n (n + payload.claims.length)).map ClaimId.mk) :
    ∃ before entry after, payload.claims = before ++ entry :: after ∧ id = ⟨n + before.length⟩ := by
  obtain ⟨m, hm, rfl⟩ := List.mem_map.1 hid
  obtain ⟨hle, hlt⟩ := List.Ico.mem.1 hm
  obtain ⟨i, rfl⟩ := Nat.exists_eq_add_of_le hle
  have hi : i < payload.claims.length := Nat.lt_of_add_lt_add_left hlt
  refine ⟨payload.claims.take i, payload.claims[i], payload.claims.drop (i + 1), ?_, ?_⟩
  · rw [List.getElem_cons_drop, List.take_append_drop]
  · rw [List.length_take_of_le hi.le]

theorem loadedInto_of_load (hg : g.WellFormed) (hload : payload.load g = .ok (loaded, g')) :
    payload.LoadedInto g loaded g' := by
  obtain ⟨hwf, hgrows, -⟩ := load_grows hg hload
  obtain ⟨hmore, hclaims, hnamed, blocks, hblocks, hjoints, hrelations⟩ := addedTo_of_load hg hload
  have hstart : g.Grows (payload.start g).graph := (grownFrom_start hg).grows
  have hlive : ∀ block ∈ blocks, (∀ id ∈ block.claims, g'.contains (.claim id)) ∧
      ∀ id ∈ block.relations, g'.contains (.relation id) := by
    intro block hblock
    obtain ⟨_, -, hadded⟩ := Outcome.exists_of_forall₂ hblocks.flip hblock
    exact hadded.live
  rw [relationsSince_start] at hrelations
  have hclaimsSince := hstart.claimsSince_append hmore.toLater
  refine ⟨hgrows, fun hsplit => ?_, fun key => ?_, hnamed, ⟨blocks, hblocks, ?_, hrelations⟩,
    hgrows.live_claim_iff hwf fun id hid => ?_, hgrows.live_relation_iff hwf fun id hid => ?_⟩
  · obtain ⟨hclaim, hlast⟩ := claim?_start hg hsplit
    exact ⟨hmore.claim? hclaim, fun hne => hclaims ▸ hlast hne⟩
  · rw [hclaims, declares_iff g]
  · rw [← claimsSince_start, ← hclaimsSince]
    exact hjoints.append_left _
  · rw [← hclaimsSince, List.mem_append, ← hjoints.mem_iff, List.mem_flatMap] at hid
    obtain hid | ⟨block, hblock, hid⟩ := hid
    · obtain ⟨before, entry, after, hsplit, rfl⟩ := exists_entry_of_mem (claimsSince_start payload g ▸ hid)
      exact hmore.contains (Graph.contains_claim_iff.2 ⟨_, (claim?_start hg hsplit).1⟩)
    · exact (hlive block hblock).1 id hid
  · rw [← hrelations.mem_iff, List.mem_flatMap] at hid
    obtain ⟨block, hblock, hid⟩ := hid
    exact (hlive block hblock).2 id hid

/-- A payload whose relations have names of their own loads exactly if all that it refers to can be resolved.
Then the graph is as before but for what the payload says, and else it is as before. -/
theorem load_verdict (hg : g.Reachable) (hids : (payload.relations.map (·.id)).Nodup) :
    ((∃ result, payload.load g = .ok result) ↔ payload.Resolvable) ∧
    (∀ loaded g', payload.load g = .ok (loaded, g') → payload.LoadedInto g loaded g') ∧
    ∀ e, payload.load g = .error e → (g.perform (.loadPayload payload)).2 = g := by
  refine ⟨exists_load_iff hg.wellFormed hids, fun _ _ hload => loadedInto_of_load hg.wellFormed hload, ?_⟩
  intro e hload
  rw [Graph.perform, hload]

/-- A relation that is about a later one, which joins two sources given out of order. -/
def forward : Payload where
  claims := [⟨.number 1, "a", false, none⟩, ⟨.number 2, "b", true, some "s"⟩, ⟨.number 1, "c", false, none⟩]
  relations := [⟨.number 10, [⟨"claim", .number 2⟩], ⟨"relation", .number 11⟩, some "attack", false⟩,
    ⟨.number 11, [⟨"claim", .number 2⟩, ⟨"claim", .number 1⟩], ⟨"claim", .number 1⟩, some "support", true⟩]

theorem resolvable_forward : forward.Resolvable where
  resolves entry hmem := by
    rcases List.mem_pair.1 hmem with rfl | rfl
    · exact ⟨by simp [Declares, forward],
        .inr ⟨rfl, _, List.mem_cons_of_mem _ List.mem_cons_self, rfl, by simp⟩⟩
    · exact ⟨by simp [Declares, forward], .inl ⟨rfl, by simp [Declares, forward]⟩⟩
  acyclic entry hloop := by
    -- The entry would name a relation and be named by one, and only the first names any.
    obtain ⟨_, ⟨hentry, -, hcls, -⟩, -⟩ := TransGen.head'_iff.1 hloop
    obtain ⟨other, -, hother, -, hothercls, hid⟩ := TransGen.tail'_iff.1 hloop
    rcases List.mem_pair.1 hentry with rfl | rfl
    · rcases List.mem_pair.1 hother with rfl | rfl
      · simp at hid
      · simp at hothercls
    · simp at hcls

/-- The graph already holds a claim when the forward reference is loaded. -/
theorem load_verdict_of_forward :
    (Graph.empty.after [.addClaim "z" .plain] : Graph Float32).Reachable ∧
    (forward.relations.map (·.id)).Nodup ∧
    ∃ loaded g', forward.load (Graph.empty.after [.addClaim "z" .plain] : Graph Float32) = .ok (loaded, g') ∧
      forward.LoadedInto (Graph.empty.after [.addClaim "z" .plain]) loaded g' := by
  have hg : (Graph.empty.after [.addClaim "z" .plain] : Graph Float32).Reachable := ⟨_, rfl⟩
  have hids : (forward.relations.map (·.id)).Nodup := by decide
  obtain ⟨hloads, hcontents, -⟩ := load_verdict hg hids
  obtain ⟨⟨loaded, g'⟩, hload⟩ := hloads.2 resolvable_forward
  exact ⟨hg, hids, loaded, g', hload, hcontents loaded g' hload⟩

end Payload

end ArgumentDiagram
