import ArgumentDiagram.Payload.Load
import ArgumentDiagram.Proofs.Graph.Growth
import Mathlib.Data.List.Perm.Basic

/-!
Loading in rounds. The order in which the entries of a payload have their turns depends on their names, sources
and targets alone, whatever graph they are loaded into. Rounds come down to one run, in which the entries are
added one after the other in this order, and go through only if none is left waiting. A run adds a name for each
entry with sources and changes no name that is there.
-/

namespace ArgumentDiagram

namespace Loaded

variable {l : Loaded} {ref : Reference}

theorem source_eq_ok {id : ClaimId} :
    l.source ref = .ok id ↔ ref.cls = "claim" ∧ l.claims.get? ref.id = some id := by
  rw [source]
  split
  next hcls =>
    cases l.claims.get? ref.id <;> simp [hcls]
  next hcls => exact ⟨nofun, fun h => absurd h.1 hcls⟩

theorem target_eq_ok {entity : Entity} :
    l.target ref = .ok entity ↔
      (ref.cls = "claim" ∧ ∃ id, l.claims.get? ref.id = some id ∧ entity = .claim id) ∨
      (ref.cls = "relation" ∧ ∃ id, l.relations.get? ref.id = some id ∧ entity = .relation id) := by
  rw [target]
  split
  next hcls => cases l.claims.get? ref.id <;> simp [hcls, eq_comm]
  next hcls => cases l.relations.get? ref.id <;> simp [hcls, eq_comm]
  next hclaim hrelation =>
    refine ⟨nofun, ?_⟩
    rintro (⟨hcls, -⟩ | ⟨hcls, -⟩)
    · exact absurd hcls hclaim
    · exact absurd hcls hrelation

/-- What is loaded once a relation may have been added under a name. -/
def record (l : Loaded) (key : PayloadId) : Option RelationId → Loaded
  | .some id => { l with relations := l.relations.insert key id }
  | .none => l

@[simp]
theorem claims_record (key : PayloadId) (added : Option RelationId) :
    (l.record key added).claims = l.claims := by
  cases added <;> rfl

theorem get?_record (l : Loaded) (key : PayloadId) (id : RelationId) :
    (l.record key (some id)).relations.get? key = some id := by
  simp [record, Table.get?_insert]

/-- More names for relations. -/
structure Extends (l l' : Loaded) : Prop where
  claims : l'.claims = l.claims
  relations : ∀ {key id}, l.relations.get? key = some id → l'.relations.get? key = some id

namespace Extends

variable {l' l'' : Loaded}

theorem refl (l : Loaded) : l.Extends l := ⟨rfl, id⟩

theorem trans (h : l.Extends l') (h' : l'.Extends l'') : l.Extends l'' :=
  ⟨h'.claims.trans h.claims, fun hget => h'.relations (h.relations hget)⟩

theorem source (h : l.Extends l') {id : ClaimId} (hsource : l.source ref = .ok id) :
    l'.source ref = .ok id := by
  rw [source_eq_ok] at hsource ⊢
  rwa [h.claims]

theorem target (h : l.Extends l') {entity : Entity} (htarget : l.target ref = .ok entity) :
    l'.target ref = .ok entity := by
  rw [target_eq_ok] at htarget ⊢
  rw [h.claims]
  rcases htarget with hclaim | ⟨hcls, id, hget, rfl⟩
  · exact .inl hclaim
  · exact .inr ⟨hcls, id, h.relations hget, rfl⟩

end Extends

end Loaded

namespace Payload

variable {α : Type} [Scalar α] {p q : Progress α} {entry : RelationEntry}

/-- The kind that an entry names, if it names one. -/
def kindOf (entry : RelationEntry) : Option RelationKind := entry.kind.bind RelationKind.named?

theorem addRelation_eq_ok : addRelation p entry = .ok q ↔
    ∃ sources target added graph,
      List.Forall₂ (fun ref id => p.loaded.source ref = .ok id) (sortedSources entry) sources ∧
      p.loaded.target entry.target = .ok target ∧
      p.loaded.relations.get? entry.id = none ∧
      p.graph.addRelation sources target (kindOf entry) (.ofAssumption entry.assumption) =
        .ok (added, graph) ∧
      q = ⟨graph, p.loaded.record entry.id added⟩ := by
  have hnew : p.loaded.relations.get? entry.id = none ↔ ¬p.loaded.relations.contains entry.id := by
    simp [Table.contains_eq_isSome]
  simp only [addRelation, Outcome.bind_eq_ok, Outcome.mapM_eq_ok, hnew]
  constructor
  · rintro ⟨sources, hsources, target, htarget, hadd⟩
    split at hadd
    · simp [bind, Except.bind] at hadd
    next hfresh =>
      obtain ⟨⟨added, graph⟩, hgraph, hresult⟩ := Outcome.bind_eq_ok.1 hadd
      refine ⟨sources, target, added, graph, hsources, htarget, hfresh, hgraph, ?_⟩
      cases added <;> exact (Except.ok.inj hresult).symm
  · rintro ⟨sources, target, added, graph, hsources, htarget, hfresh, hgraph, rfl⟩
    refine ⟨sources, hsources, target, htarget, ?_⟩
    rw [if_neg hfresh]
    refine Outcome.bind_eq_ok.2 ⟨_, hgraph, ?_⟩
    cases added <;> rfl

theorem length_sortedSources (entry : RelationEntry) :
    (sortedSources entry).length = entry.sources.length := List.length_mergeSort ..

/-- An entry gets a name if it has sources, and no other name changes. -/
theorem get?_addRelation (h : addRelation p entry = .ok q) :
    p.loaded.Extends q.loaded ∧
    ∀ key, (∃ id, q.loaded.relations.get? key = some id) ↔
      (∃ id, p.loaded.relations.get? key = some id) ∨ entry.id = key ∧ entry.sources ≠ [] := by
  obtain ⟨sources, target, added, graph, hsources, -, hfresh, hgraph, rfl⟩ := addRelation_eq_ok.1 h
  have hlength := hsources.length_eq.symm.trans (length_sortedSources entry)
  rw [← List.length_pos_iff, ← hlength, List.length_pos_iff]
  cases added with
  | none =>
      have hnil : sources = [] := by
        rcases Graph.addRelation_cases hgraph with ⟨hnil, -⟩ | ⟨_, _, _, _, hsome, _⟩ | ⟨_, _, _, hsome, _⟩
        · exact hnil
        · cases hsome
        · cases hsome
      exact ⟨.refl _, fun key => by simp [Loaded.record, hnil]⟩
  | some id =>
      have hcons : sources ≠ [] := by
        rintro rfl
        cases hgraph
      refine ⟨⟨rfl, fun {key old} hget => ?_⟩, fun key => ?_⟩
      · have hne : key ≠ entry.id := by
          rintro rfl
          rw [hfresh] at hget
          cases hget
        simp only [Loaded.record, Table.get?_insert, if_neg hne]
        exact hget
      · simp only [Loaded.record, Table.get?_insert]
        by_cases hkey : key = entry.id
        · simp [hkey, hcons]
        · simp [hkey, Ne.symm hkey]

/-- Adds entries one after the other. -/
def addAll (p : Progress α) (entries : List RelationEntry) : Except GraphError (Progress α) :=
  entries.foldlM addRelation p

theorem addAll_nil : addAll p [] = .ok q ↔ q = p := by
  simp [addAll, pure, Except.pure, eq_comm]

theorem addAll_cons {rest : List RelationEntry} :
    addAll p (entry :: rest) = .ok q ↔ ∃ next, addRelation p entry = .ok next ∧ addAll next rest = .ok q := by
  rw [addAll, List.foldlM_cons, Outcome.bind_eq_ok]
  rfl

theorem addAll_append {first second : List RelationEntry} :
    addAll p (first ++ second) = .ok q ↔ ∃ next, addAll p first = .ok next ∧ addAll next second = .ok q := by
  rw [addAll, List.foldlM_append, Outcome.bind_eq_ok]
  rfl

theorem get?_addAll {entries : List RelationEntry} (hrun : addAll p entries = .ok q) :
    p.loaded.Extends q.loaded ∧
    ∀ key, (∃ id, q.loaded.relations.get? key = some id) ↔
      (∃ id, p.loaded.relations.get? key = some id) ∨
        ∃ entry ∈ entries, entry.id = key ∧ entry.sources ≠ [] := by
  induction entries generalizing p with
  | nil =>
      obtain rfl := addAll_nil.1 hrun
      exact ⟨.refl _, by simp⟩
  | cons entry rest ih =>
      obtain ⟨next, hadd, hrest⟩ := addAll_cons.1 hrun
      obtain ⟨hextends, hnames⟩ := get?_addRelation hadd
      obtain ⟨hextends', hnames'⟩ := ih hrest
      refine ⟨hextends.trans hextends', fun key => ?_⟩
      rw [hnames', hnames, or_assoc, List.exists_mem_cons_iff]

/-- The names that entries give to relations. Those without sources give none. -/
def names (entries : List RelationEntry) : List PayloadId := (entries.filter (·.sources ≠ [])).map (·.id)

/-- An entry has to wait for a relation that none of the entries before it gave a name, but one of those that are
waiting may. -/
def Waits (waiting : List PayloadId) (done : List RelationEntry) (entry : RelationEntry) : Prop :=
  entry.target.cls = "relation" ∧ entry.target.id ∉ names done ∧ entry.target.id ∈ waiting

instance (waiting : List PayloadId) (done : List RelationEntry) (entry : RelationEntry) :
    Decidable (Waits waiting done entry) := inferInstanceAs (Decidable (_ ∧ _))

/-- The entries that have had their turns by the end of a round, after those that were `done` before it, and the
entries that have to wait. -/
def turn (waiting : List PayloadId) (done : List RelationEntry) :
    List RelationEntry → List RelationEntry × List RelationEntry
  | [] => (done, [])
  | entry :: rest =>
    if Waits waiting done entry then
      ((turn waiting done rest).1, entry :: (turn waiting done rest).2)
    else turn waiting (done ++ [entry]) rest

/-- A round in which the entries wait for each other. -/
def pass (done pending : List RelationEntry) : List RelationEntry × List RelationEntry :=
  turn (pending.map (·.id)) done pending

/-- The entries that have their turns in some round, one after the other, and those that never do. -/
def turns (done pending : List RelationEntry) : List RelationEntry × List RelationEntry :=
  if (pass done pending).2.length < pending.length then turns (pass done pending).1 (pass done pending).2
  else pass done pending
termination_by pending.length

/-- The entries of a payload in the order of their turns, and those that never have any. -/
def order (payload : Payload) : List RelationEntry × List RelationEntry := turns [] (inOrder payload.relations)

variable {waiting : List PayloadId} {done entries pending : List RelationEntry}

theorem mem_names_iff {key : PayloadId} :
    key ∈ names entries ↔ ∃ entry ∈ entries, entry.id = key ∧ entry.sources ≠ [] := by
  simp only [names, List.mem_map, List.mem_filter, decide_eq_true_eq]
  exact ⟨fun ⟨entry, ⟨hmem, hsources⟩, hid⟩ => ⟨entry, hmem, hid, hsources⟩,
    fun ⟨entry, hmem, hid, hsources⟩ => ⟨entry, ⟨hmem, hsources⟩, hid⟩⟩

theorem turn_cons_of_waits (h : Waits waiting done entry) (rest : List RelationEntry) :
    turn waiting done (entry :: rest) = ((turn waiting done rest).1, entry :: (turn waiting done rest).2) := by
  rw [turn, if_pos h]

theorem turn_cons_of_not_waits (h : ¬Waits waiting done entry) (rest : List RelationEntry) :
    turn waiting done (entry :: rest) = turn waiting (done ++ [entry]) rest := by
  rw [turn, if_neg h]

theorem turn_perm (waiting : List PayloadId) (done entries : List RelationEntry) :
    ((turn waiting done entries).1 ++ (turn waiting done entries).2).Perm (done ++ entries) := by
  induction entries generalizing done with
  | nil => exact .refl _
  | cons entry rest ih =>
      by_cases h : Waits waiting done entry
      · rw [turn_cons_of_waits h]
        exact List.perm_middle.trans (((ih done).cons entry).trans List.perm_middle.symm)
      · rw [turn_cons_of_not_waits h, List.append_cons done entry rest]
        exact ih _

theorem turn_append_of_not_waits (h : ∀ entry ∈ entries, ∀ done, ¬Waits waiting done entry)
    (done rest : List RelationEntry) : turn waiting done (entries ++ rest) = turn waiting (done ++ entries) rest := by
  induction entries generalizing done with
  | nil => rw [List.nil_append, List.append_nil]
  | cons entry entries ih =>
      obtain ⟨hentry, hentries⟩ := List.forall_mem_cons.1 h
      rw [List.cons_append, turn_cons_of_not_waits (hentry done), ih hentries, List.append_assoc,
        List.singleton_append]

theorem prefix_turn (waiting : List PayloadId) (done entries : List RelationEntry) :
    done <+: (turn waiting done entries).1 := by
  induction entries generalizing done with
  | nil => exact List.prefix_rfl
  | cons entry rest ih =>
      by_cases h : Waits waiting done entry
      · rw [turn_cons_of_waits h]
        exact ih done
      · rw [turn_cons_of_not_waits h]
        exact (List.prefix_append done [entry]).trans (ih _)

theorem length_turn_le (waiting : List PayloadId) (done entries : List RelationEntry) :
    (turn waiting done entries).2.length ≤ entries.length := by
  induction entries generalizing done with
  | nil => exact Nat.le_refl _
  | cons entry rest ih =>
      by_cases h : Waits waiting done entry
      · rw [turn_cons_of_waits h]
        exact Nat.succ_le_succ (ih done)
      · rw [turn_cons_of_not_waits h]
        exact Nat.le_succ_of_le (ih _)

/-- If no entry has its turn in a round, then all have to wait. -/
theorem waits_of_turn (h : (turn waiting done entries).2.length = entries.length) :
    turn waiting done entries = (done, entries) ∧ ∀ entry ∈ entries, Waits waiting done entry := by
  induction entries with
  | nil => exact ⟨rfl, List.forall_mem_nil _⟩
  | cons entry rest ih =>
      by_cases hwaits : Waits waiting done entry
      · rw [turn_cons_of_waits hwaits] at h ⊢
        obtain ⟨hrest, hall⟩ := ih (Nat.succ.inj h)
        exact ⟨by rw [hrest], List.forall_mem_cons.2 ⟨hwaits, hall⟩⟩
      · rw [turn_cons_of_not_waits hwaits] at h
        exact absurd h (Nat.ne_of_lt (Nat.lt_succ_of_le (length_turn_le ..)))

theorem turns_eq (done pending : List RelationEntry) : turns done pending =
    if (pass done pending).2.length < pending.length then turns (pass done pending).1 (pass done pending).2
    else pass done pending := by
  rw [turns]

/-- What every round preserves, all rounds together preserve. -/
theorem turns_induction {P : List RelationEntry → List RelationEntry → Prop}
    (hpass : ∀ {done pending}, P done pending → P (pass done pending).1 (pass done pending).2)
    (h : P done pending) : P (turns done pending).1 (turns done pending).2 := by
  induction hlength : pending.length using Nat.strongRecOn generalizing done pending with
  | ind _ ih =>
      rw [turns_eq]
      split
      next hless => exact ih _ (hlength ▸ hless) (hpass h) rfl
      next => exact hpass h

theorem turns_perm (done pending : List RelationEntry) :
    ((turns done pending).1 ++ (turns done pending).2).Perm (done ++ pending) :=
  turns_induction (P := fun done' pending' => (done' ++ pending').Perm (done ++ pending))
    (fun h => (turn_perm ..).trans h) (.refl _)

theorem prefix_turns (done pending : List RelationEntry) : done <+: (turns done pending).1 :=
  turns_induction (P := fun done' _ => done <+: done') (fun h => h.trans (prefix_turn ..)) List.prefix_rfl

theorem prefix_pass_turns (done pending : List RelationEntry) : (pass done pending).1 <+: (turns done pending).1 := by
  rw [turns_eq]
  split
  next => exact prefix_turns ..
  next => exact List.prefix_rfl

/-- A round after which nothing is waiting is the last one. -/
theorem turns_of_done (h : (pass done pending).2 = []) : turns done pending = pass done pending := by
  have hnil : turns (pass done pending).1 [] = ((pass done pending).1, []) := by
    rw [turns_eq]
    rfl
  rw [turns_eq]
  split
  next => rw [h, hnil, ← h]
  next => rfl

/-- Entries that never have their turns wait for each other. -/
theorem waits_of_turns (done pending : List RelationEntry) : ∀ entry ∈ (turns done pending).2,
    Waits ((turns done pending).2.map (·.id)) (turns done pending).1 entry := by
  induction hlength : pending.length using Nat.strongRecOn generalizing done pending with
  | ind _ ih =>
      rw [turns_eq]
      split
      next hless => exact ih _ (hlength ▸ hless) _ _ rfl
      next hstuck =>
        obtain ⟨hpass, hall⟩ := waits_of_turn (Nat.le_antisymm (length_turn_le ..) (Nat.le_of_not_lt hstuck))
        rw [pass, hpass]
        exact hall

theorem inOrder_perm (relations : List RelationEntry) : (inOrder relations).Perm relations := by
  simpa [inOrder] using
    List.filter_append_perm (fun e : RelationEntry => decide (e.target.cls = "claim")) relations

/-- Entries into claims have their turns first. -/
theorem prefix_order (payload : Payload) :
    payload.relations.filter (·.target.cls = "claim") <+: payload.order.1 := by
  refine List.IsPrefix.trans ?_ (prefix_pass_turns ..)
  rw [pass, inOrder, turn_append_of_not_waits, List.nil_append]
  · exact prefix_turn ..
  · rintro entry hentry done ⟨hrelation, -⟩
    have hclaim : entry.target.cls = "claim" := by simpa using (List.mem_filter.1 hentry).2
    rw [hclaim] at hrelation
    exact absurd hrelation (by decide)

theorem order_perm (payload : Payload) : (payload.order.1 ++ payload.order.2).Perm payload.relations :=
  (turns_perm [] _).trans (inOrder_perm _)

variable {s : Progress α}

theorem mem_names_iff_get? (hs : s.loaded.relations = .empty) (hp : addAll s done = .ok p) {key : PayloadId} :
    key ∈ names done ↔ ∃ id, p.loaded.relations.get? key = some id := by
  rw [(get?_addAll hp).2, mem_names_iff, hs]
  simp

theorem isBlocked_iff_waits (hs : s.loaded.relations = .empty) (hp : addAll s done = .ok p) :
    isBlocked p.loaded waiting entry ↔ Waits waiting done entry := by
  rw [Waits, mem_names_iff_get? hs hp]
  simp [isBlocked, Table.contains_eq_isSome, Option.eq_none_iff_forall_ne_some, and_assoc]

/-- A run that goes through went through up to each of its entries. -/
theorem addAll_of_prefix (h : done <+: entries) (hrun : addAll s entries = .ok q) : ∃ p, addAll s done = .ok p := by
  obtain ⟨later, rfl⟩ := h
  obtain ⟨p, hp, -⟩ := addAll_append.1 hrun
  exact ⟨p, hp⟩

theorem addAll_concat (hp : addAll s done = .ok p) :
    addAll s (done ++ [entry]) = .ok q ↔ addRelation p entry = .ok q := by
  simp [addAll_append, addAll_cons, addAll_nil, hp]

theorem round_eq_ok (hs : s.loaded.relations = .empty) (hp : addAll s done = .ok p) {left : List RelationEntry} :
    round waiting entries p = .ok (left, q) ↔
      (turn waiting done entries).2 = left ∧ addAll s (turn waiting done entries).1 = .ok q := by
  -- The run so far goes with the induction: which entries are blocked depends on the names that it has given.
  induction entries generalizing p done left with
  | nil => simp [round, turn, hp]
  | cons entry rest ih =>
      by_cases hwaits : Waits waiting done entry
      · rw [round, if_pos ((isBlocked_iff_waits hs hp).2 hwaits), turn_cons_of_waits hwaits, Outcome.bind_eq_ok]
        constructor
        · rintro ⟨⟨later, next⟩, hlater, hresult⟩
          obtain ⟨rfl, rfl⟩ := Prod.mk.inj (Except.ok.inj hresult)
          obtain ⟨rfl, hrun⟩ := (ih hp).1 hlater
          exact ⟨rfl, hrun⟩
        · rintro ⟨rfl, hrun⟩
          exact ⟨_, (ih hp).2 ⟨rfl, hrun⟩, rfl⟩
      · rw [round, if_neg (mt (isBlocked_iff_waits hs hp).1 hwaits), turn_cons_of_not_waits hwaits,
          Outcome.bind_eq_ok]
        constructor
        · rintro ⟨next, hadd, hrest⟩
          exact (ih ((addAll_concat hp).2 hadd)).1 hrest
        · rintro ⟨hleft, hrun⟩
          obtain ⟨next, hnext⟩ := addAll_of_prefix (prefix_turn ..) hrun
          exact ⟨next, (addAll_concat hp).1 hnext, (ih hnext).2 ⟨hleft, hrun⟩⟩

/-- Rounds go through exactly if all entries have their turns and can be added in their order. -/
theorem rounds_eq_ok (hs : s.loaded.relations = .empty) (hp : addAll s done = .ok p) :
    rounds pending p = .ok q ↔ (turns done pending).2 = [] ∧ addAll s (turns done pending).1 = .ok q := by
  induction hlength : pending.length using Nat.strongRecOn generalizing done pending p with
  | ind _ ih =>
      rw [rounds]
      cases hround : round (pending.map (·.id)) pending p with
      | error e =>
          -- A run of all rounds would have gone through the first one.
          refine iff_of_false (by simp) fun ⟨_, hrun⟩ => ?_
          obtain ⟨next, hnext⟩ := addAll_of_prefix (prefix_pass_turns ..) hrun
          rw [(round_eq_ok hs hp).2 ⟨rfl, hnext⟩] at hround
          cases hround
      | ok result =>
          obtain ⟨left, next⟩ := result
          obtain ⟨hleft, hrun⟩ := (round_eq_ok hs hp).1 hround
          rw [← pass] at hleft hrun
          cases left with
          | nil => simp [turns_of_done hleft, hleft, hrun]
          | cons first deferred =>
              dsimp only
              split
              next hless =>
                have hless' : (pass done pending).2.length < pending.length := hleft ▸ hless
                rw [turns_eq, if_pos hless', hleft]
                exact ih _ (hlength ▸ hless) hrun rfl
              next hstuck =>
                have hstuck' : ¬(pass done pending).2.length < pending.length := hleft ▸ hstuck
                rw [turns_eq, if_neg hstuck', hleft]
                simp

/-! ### The whole payload -/

variable {payload : Payload} {g g' : Graph α} {loaded : Loaded}

/-- The claims of a payload, added to a graph. -/
def start (payload : Payload) (g : Graph α) : Progress α := payload.claims.foldl addClaim ⟨g, .none⟩

theorem relations_foldl_addClaim (p : Progress α) (entries : List ClaimEntry) :
    (entries.foldl addClaim p).loaded.relations = p.loaded.relations := by
  induction entries generalizing p with
  | nil => rfl
  | cons entry rest ih => exact ih (addClaim p entry)

theorem relations_start : (payload.start g).loaded.relations = .empty :=
  relations_foldl_addClaim ⟨g, .none⟩ payload.claims

/-- A payload loads exactly if all its entries have their turns and can be added in this order. -/
theorem load_eq_ok : payload.load g = .ok (loaded, g') ↔
    payload.order.2 = [] ∧ addAll (payload.start g) payload.order.1 = .ok ⟨g', loaded⟩ := by
  rw [order, ← rounds_eq_ok relations_start (addAll_nil.2 rfl), load, Outcome.bind_eq_ok]
  constructor
  · rintro ⟨p, hrounds, hresult⟩
    obtain ⟨rfl, rfl⟩ := Prod.mk.inj (Except.ok.inj hresult)
    exact hrounds
  · intro hrounds
    exact ⟨_, hrounds, rfl⟩

theorem order_perm_of_done (h : payload.order.2 = []) : payload.order.1.Perm payload.relations := by
  simpa [h] using payload.order_perm

/-- What is loaded was added to the claims, entry after entry. -/
theorem run_of_load (hload : payload.load g = .ok (loaded, g')) :
    payload.order.1.Perm payload.relations ∧
      addAll (payload.start g) payload.order.1 = .ok ⟨g', loaded⟩ := by
  obtain ⟨hdone, hrun⟩ := load_eq_ok.1 hload
  exact ⟨order_perm_of_done hdone, hrun⟩

end Payload

end ArgumentDiagram
