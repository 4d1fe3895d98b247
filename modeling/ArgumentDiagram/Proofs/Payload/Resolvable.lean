import ArgumentDiagram.Proofs.Acyclic
import ArgumentDiagram.Proofs.Graph.Loading

/-!
Which payloads load: those in which all sources are claims of the payload, every target is one of its claims
or a relation of it that has sources, no entry comes back to itself from target to target, and no entry has its
turn after a relation with its name.
-/

open Relation

namespace ArgumentDiagram

namespace Payload

def Declares (payload : Payload) (id : PayloadId) : Prop := ∃ entry ∈ payload.claims, entry.id = id

/-- The target of one entry names another one. -/
def Follows (payload : Payload) (entry other : RelationEntry) : Prop :=
  entry ∈ payload.relations ∧ other ∈ payload.relations ∧
    entry.target.cls = "relation" ∧ other.id = entry.target.id

/-- All that an entry refers to is a claim of the payload or one of the relations that are known. -/
structure Resolves (payload : Payload) (known : List RelationEntry) (entry : RelationEntry) : Prop where
  sources : ∀ ref ∈ entry.sources, ref.cls = "claim" ∧ payload.Declares ref.id
  target : (entry.target.cls = "claim" ∧ payload.Declares entry.target.id) ∨
    (entry.target.cls = "relation" ∧ ∃ other ∈ known, other.id = entry.target.id ∧ other.sources ≠ [])

structure Resolvable (payload : Payload) : Prop where
  resolves : ∀ entry ∈ payload.relations, payload.Resolves payload.relations entry
  acyclic : ∀ entry, ¬TransGen payload.Follows entry entry

variable {α : Type} [Scalar α] {payload : Payload} {g : Graph α} {p q : Progress α}
  {entry : RelationEntry} {done order : List RelationEntry}

theorem get?_foldl_addClaim (p : Progress α) (entries : List ClaimEntry) (key : PayloadId) :
    (∃ id, (entries.foldl addClaim p).loaded.claims.get? key = some id) ↔
      (∃ entry ∈ entries, entry.id = key) ∨ ∃ id, p.loaded.claims.get? key = some id := by
  induction entries generalizing p with
  | nil => simp
  | cons entry rest ih =>
      rw [List.foldl_cons, ih, List.exists_mem_cons_iff, or_assoc, or_left_comm]
      apply or_congr_right
      change (∃ id, (p.loaded.claims.insert entry.id ⟨p.graph.nextClaim⟩).get? key = some id) ↔ _
      rw [Table.get?_insert]
      by_cases hkey : key = entry.id
      · simp [hkey]
      · simp [hkey, Ne.symm hkey]

theorem declares_iff (g : Graph α) {key : PayloadId} :
    payload.Declares key ↔ ∃ id, (payload.start g).loaded.claims.get? key = some id := by
  simp [start, get?_foldl_addClaim, Declares, Loaded.none]

theorem declares_iff_get? (hrun : addAll (payload.start g) done = .ok p) {key : PayloadId} :
    payload.Declares key ↔ ∃ id, p.loaded.claims.get? key = some id := by
  rw [(get?_addAll hrun).1.claims]
  exact declares_iff g

theorem resolves_of_addRelation (hrun : addAll (payload.start g) done = .ok p)
    (hadd : addRelation p entry = .ok q) : payload.Resolves done entry ∧ entry.id ∉ names done := by
  obtain ⟨sources, target, _, _, hsources, htarget, hfresh, -, -⟩ := addRelation_eq_ok.1 hadd
  have hnamed : ∀ {key}, key ∈ names done ↔ ∃ id, p.loaded.relations.get? key = some id :=
    mem_names_iff_get? relations_start hrun
  refine ⟨⟨fun ref href => ?_, ?_⟩, ?_⟩
  · obtain ⟨id, -, hsource⟩ := Outcome.exists_of_forall₂ hsources (List.mem_mergeSort.2 href)
    obtain ⟨hcls, hget⟩ := Loaded.source_eq_ok.1 hsource
    exact ⟨hcls, (declares_iff_get? hrun).2 ⟨id, hget⟩⟩
  · rcases Loaded.target_eq_ok.1 htarget with ⟨hcls, id, hget, -⟩ | ⟨hcls, id, hget, -⟩
    · exact .inl ⟨hcls, (declares_iff_get? hrun).2 ⟨id, hget⟩⟩
    · exact .inr ⟨hcls, mem_names_iff.1 (hnamed.2 ⟨id, hget⟩)⟩
  · rw [hnamed, hfresh]
    simp

theorem exists_addRelation_of_resolves (hg : g.WellFormed) (hrun : addAll (payload.start g) done = .ok p)
    (hresolves : payload.Resolves done entry) (hnew : entry.id ∉ names done) :
    ∃ q, addRelation p entry = .ok q := by
  have hgrown := grownFrom_addAll (grownFrom_start hg) hrun
  have hnamed : ∀ {key}, key ∈ names done ↔ ∃ id, p.loaded.relations.get? key = some id :=
    mem_names_iff_get? relations_start hrun
  have hsource : ∀ ref ∈ sortedSources entry, ∃ id, p.loaded.source ref = .ok id := by
    intro ref href
    obtain ⟨hcls, hkey⟩ := hresolves.sources ref (List.mem_mergeSort.1 href)
    obtain ⟨id, hget⟩ := (declares_iff_get? hrun).1 hkey
    exact ⟨id, Loaded.source_eq_ok.2 ⟨hcls, hget⟩⟩
  obtain ⟨sources, hsources⟩ : ∃ sources, (sortedSources entry).mapM p.loaded.source = .ok sources := by
    cases hmapM : (sortedSources entry).mapM p.loaded.source with
    | ok sources => exact ⟨sources, rfl⟩
    | error e =>
        obtain ⟨ref, href, herror⟩ := Outcome.exists_of_mapM_eq_error hmapM
        obtain ⟨id, hok⟩ := hsource ref href
        rw [hok] at herror
        cases herror
  have htarget : ∃ target, p.loaded.target entry.target = .ok target ∧ p.graph.contains target := by
    rcases hresolves.target with ⟨hcls, hkey⟩ | ⟨hcls, hother⟩
    · obtain ⟨id, hget⟩ := (declares_iff_get? hrun).1 hkey
      exact ⟨_, Loaded.target_eq_ok.2 (.inl ⟨hcls, id, hget, rfl⟩), hgrown.claims_live hget⟩
    · obtain ⟨id, hget⟩ := hnamed.1 (mem_names_iff.2 hother)
      exact ⟨_, Loaded.target_eq_ok.2 (.inr ⟨hcls, id, hget, rfl⟩), hgrown.relations_live hget⟩
  obtain ⟨target, htarget, hlive⟩ := htarget
  rw [Outcome.mapM_eq_ok] at hsources
  have hsources_live : ∀ source ∈ sources, p.graph.contains (.claim source) := by
    intro source hmem
    obtain ⟨ref, -, hok⟩ := Outcome.exists_of_forall₂ hsources.flip hmem
    exact hgrown.claims_live (Loaded.source_eq_ok.1 hok).2
  have hfresh : p.loaded.relations.get? entry.id = none :=
    Option.eq_none_iff_forall_ne_some.2 fun id hget => hnew (hnamed.2 ⟨id, hget⟩)
  obtain ⟨added, graph, hgraph⟩ := Graph.exists_addRelation hsources_live hlive (kindOf entry)
    (.ofAssumption entry.assumption)
  exact ⟨_, addRelation_eq_ok.2 ⟨sources, target, added, graph, hsources, htarget, hfresh, hgraph, rfl⟩⟩

/-- All that an entry refers to comes before it. -/
def Settled (payload : Payload) (order : List RelationEntry) : Prop :=
  ∀ before entry after, order = before ++ entry :: after → payload.Resolves before entry

/-- No entry comes with the name of a relation that one before it stands for. -/
def NoRepeats (order : List RelationEntry) : Prop :=
  order.Pairwise fun first second => first.id = second.id → first.sources = []

theorem settled_concat :
    payload.Settled (done ++ [entry]) ↔ payload.Settled done ∧ payload.Resolves done entry := by
  constructor
  · intro h
    refine ⟨fun before other after heq => h before other (after ++ [entry]) ?_, h done entry [] rfl⟩
    rw [heq, List.append_assoc, List.cons_append]
  · rintro ⟨hdone, hentry⟩ before other after heq
    rcases List.eq_nil_or_concat after with rfl | ⟨after, last, rfl⟩
    · obtain ⟨rfl, hlast⟩ := List.append_inj' heq rfl
      obtain rfl := (List.cons.inj hlast).1
      exact hentry
    · rw [List.concat_eq_append, ← List.cons_append, ← List.append_assoc] at heq
      exact hdone before other after (List.append_inj' heq rfl).1

theorem noRepeats_concat : NoRepeats (done ++ [entry]) ↔ NoRepeats done ∧ entry.id ∉ names done := by
  simp [NoRepeats, List.pairwise_append, mem_names_iff]

/-- A run goes through exactly if all that its entries refer to comes before them and no name comes again. -/
theorem exists_addAll_iff (hg : g.WellFormed) (order : List RelationEntry) :
    (∃ q, addAll (payload.start g) order = .ok q) ↔ payload.Settled order ∧ NoRepeats order := by
  induction order using List.reverseRecOn with
  | nil => exact iff_of_true ⟨_, addAll_nil.2 rfl⟩ ⟨fun _ _ _ heq => by simp at heq, .nil⟩
  | append_singleton done entry ih =>
      rw [settled_concat, noRepeats_concat]
      constructor
      · rintro ⟨q, hq⟩
        obtain ⟨p, hp⟩ := addAll_of_prefix (List.prefix_append ..) hq
        obtain ⟨hsettled, hrepeats⟩ := ih.1 ⟨p, hp⟩
        obtain ⟨hresolves, hnew⟩ := resolves_of_addRelation hp ((addAll_concat hp).1 hq)
        exact ⟨⟨hsettled, hresolves⟩, hrepeats, hnew⟩
      · rintro ⟨⟨hsettled, hresolves⟩, hrepeats, hnew⟩
        obtain ⟨p, hp⟩ := ih.2 ⟨hsettled, hrepeats⟩
        obtain ⟨q, hadd⟩ := exists_addRelation_of_resolves hg hp hresolves hnew
        exact ⟨q, (addAll_concat hp).2 hadd⟩

/-! ### Payloads that load -/

/-- Were some entries left, then each of them would follow another one without end. -/
theorem Resolvable.order_done (hp : payload.Resolvable) : payload.order.2 = [] := by
  by_contra hne
  have hmem : ∀ entry ∈ payload.order.2, entry ∈ payload.relations :=
    fun _ hentry => payload.order_perm.subset (List.mem_append_right _ hentry)
  obtain ⟨entry, hentry, hlast⟩ := Acyclic.exists_last hp.acyclic hne
  obtain ⟨hcls, -, hwaiting⟩ := waits_of_turns _ _ entry hentry
  obtain ⟨other, hother, hid⟩ := List.mem_map.1 hwaiting
  exact hlast other hother ⟨hmem entry hentry, hmem other hother, hcls, hid⟩

/-- What need not wait resolves, if all names that are still to come are among those waited for. -/
theorem settled_turn {waiting : List PayloadId} {entries : List RelationEntry}
    (hresolves : ∀ entry ∈ entries, payload.Resolves payload.relations entry)
    (hwaiting : ∀ key ∈ names payload.relations, key ∈ names done ∨ key ∈ waiting) (h : payload.Settled done) :
    payload.Settled (turn waiting done entries).1 := by
  -- What is waited for stays the same in a round and what is done only grows, so `hwaiting` is kept.
  induction entries generalizing done with
  | nil => exact h
  | cons entry rest ih =>
      obtain ⟨hentry, hrest⟩ := List.forall_mem_cons.1 hresolves
      by_cases hwaits : Waits waiting done entry
      · rw [turn_cons_of_waits hwaits]
        exact ih hrest hwaiting h
      · rw [turn_cons_of_not_waits hwaits]
        refine ih hrest (fun key hkey => ?_) (settled_concat.2 ⟨h, hentry.sources, ?_⟩)
        · refine (hwaiting key hkey).imp_left fun hdone => ?_
          rw [names, List.filter_append, List.map_append]
          exact List.mem_append_left _ hdone
        · rcases hentry.target with hclaim | ⟨hcls, hother⟩
          · exact .inl hclaim
          · have hdone : entry.target.id ∈ names done := by
              by_contra hnew
              exact hwaits ⟨hcls, hnew, (hwaiting _ (mem_names_iff.2 hother)).resolve_left hnew⟩
            exact .inr ⟨hcls, mem_names_iff.1 hdone⟩

theorem Resolvable.settled_order (hp : payload.Resolvable) : payload.Settled payload.order.1 := by
  have hall : (payload.order.1 ++ payload.order.2).Perm payload.relations ∧ payload.Settled payload.order.1 := by
    refine turns_induction
      (P := fun done pending => (done ++ pending).Perm payload.relations ∧ payload.Settled done)
      (fun {done pending} ⟨hperm, hsettled⟩ => ⟨(turn_perm ..).trans hperm, ?_⟩)
      ⟨inOrder_perm _, fun _ _ _ heq => by simp at heq⟩
    refine settled_turn (fun entry hentry => ?_) (fun key hkey => ?_) hsettled
    · exact hp.resolves entry (hperm.subset (List.mem_append_right _ hentry))
    · obtain ⟨entry, hentry, hid, hsources⟩ := mem_names_iff.1 hkey
      rcases List.mem_append.1 (hperm.mem_iff.2 hentry) with hdone | hpending
      · exact .inl (mem_names_iff.2 ⟨entry, hdone, hid, hsources⟩)
      · exact .inr (List.mem_map.2 ⟨entry, hpending, hid⟩)
  exact hall.2

/-- From target to target the entries stand further and further to the front. -/
theorem Settled.idxOf_lt (h : payload.Settled order) (hperm : order.Perm payload.relations)
    (hrepeats : NoRepeats order) {other : RelationEntry} (hfollows : payload.Follows entry other) :
    order.idxOf other < order.idxOf entry := by
  obtain ⟨hentry, hother, hcls, hid⟩ := hfollows
  obtain ⟨before, after, rfl, hnew⟩ := List.eq_append_cons_of_mem (hperm.mem_iff.2 hentry)
  obtain ⟨hclaim, -⟩ | ⟨-, found, hfound, hfoundid, hsources⟩ := (h before entry after rfl).target
  · simp [hcls] at hclaim
  -- The target is named by an entry before this one, and nothing after that can have its name.
  have hbefore : other ∈ before := by
    rcases List.mem_append.1 (hperm.mem_iff.2 hother) with hmem | hmem
    · exact hmem
    · exact absurd ((List.pairwise_append.1 hrepeats).2.2 found hfound other hmem (hfoundid.trans hid.symm)) hsources
  rw [List.idxOf_append_of_mem hbefore, List.idxOf_append_of_notMem hnew]
  exact Nat.lt_of_lt_of_le (List.idxOf_lt_length_iff.2 hbefore) (Nat.le_add_right ..)

theorem Settled.resolvable (h : payload.Settled order) (hperm : order.Perm payload.relations)
    (hrepeats : NoRepeats order) : payload.Resolvable := by
  refine ⟨fun entry hmem => ?_, fun entry hloop => ?_⟩
  · obtain ⟨before, after, rfl⟩ := List.append_of_mem (hperm.mem_iff.2 hmem)
    have hbefore := h before entry after rfl
    refine ⟨hbefore.sources, hbefore.target.imp_right fun ⟨hcls, other, hother, hnamed⟩ => ?_⟩
    exact ⟨hcls, other, hperm.subset (List.mem_append_left _ hother), hnamed⟩
  · have hless : ∀ {entry other}, TransGen payload.Follows entry other →
        order.idxOf other < order.idxOf entry := fun hpath =>
      TransGen.trans_induction_on hpath (h.idxOf_lt hperm hrepeats) fun _ _ hle hle' => hle'.trans hle
    exact Nat.lt_irrefl _ (hless hloop)

/-- A payload loads if and only if all that it refers to can be resolved and no relation comes again under its
name. -/
theorem loads_iff (hg : g.WellFormed) : (∃ result, payload.load g = .ok result) ↔
    payload.Resolvable ∧ NoRepeats payload.order.1 := by
  constructor
  · rintro ⟨⟨loaded, g'⟩, hload⟩
    obtain ⟨hperm, hrun⟩ := run_of_load hload
    obtain ⟨hsettled, hrepeats⟩ := (exists_addAll_iff hg _).1 ⟨_, hrun⟩
    exact ⟨hsettled.resolvable hperm hrepeats, hrepeats⟩
  · rintro ⟨hp, hrepeats⟩
    obtain ⟨⟨g', loaded⟩, hrun⟩ := (exists_addAll_iff hg _).2 ⟨hp.settled_order, hrepeats⟩
    exact ⟨(loaded, g'), load_eq_ok.2 ⟨hp.order_done, hrun⟩⟩

/-- Where relations have names of their own, none can come again. -/
theorem noRepeats_order (hids : (payload.relations.map (·.id)).Nodup) : NoRepeats payload.order.1 := by
  rw [← (payload.order_perm.map _).nodup_iff, List.map_append] at hids
  have hnodup : payload.order.1.Pairwise fun first second => first.id ≠ second.id :=
    List.pairwise_map.1 hids.of_append_left
  exact hnodup.imp fun hne hid => absurd hid hne

theorem exists_load_iff (hg : g.WellFormed) (hids : (payload.relations.map (·.id)).Nodup) :
    (∃ result, payload.load g = .ok result) ↔ payload.Resolvable := by
  rw [loads_iff hg, and_iff_left (noRepeats_order hids)]

end Payload

end ArgumentDiagram
