import ArgumentDiagram.Proofs.Graph.Reachable
import ArgumentDiagram.Proofs.Table
import Mathlib.Order.Bounds.Defs

/-!
What goes with a deleted entity. A relation rests on its source and on its target; what rests on something
that goes, directly or through others, goes too, each handle once and after the relation that it pointed at.
Main statement: a deletion takes the least set of this kind, so deletions can be done in any order.
-/

open Relation

namespace ArgumentDiagram

/-- Whether a deletion removed an entity. -/
def Deleted.Names (deleted : Deleted) : Entity → Prop
  | .claim id => id ∈ deleted.claims
  | .relation id => id ∈ deleted.relations

namespace Graph

variable {α : Type} {g g' : Graph α}

/-- A set that holds an entity, if it is live, and the relations that start from a claim of the set or point
at something in it. -/
structure Closed (g : Graph α) (entity : Entity) (lost : Set Entity) : Prop where
  entity : g.contains entity → entity ∈ lost
  source : ∀ {id r}, g.relation? id = some r → .claim r.source ∈ lost → .relation id ∈ lost
  target : ∀ {id r}, g.relation? id = some r → r.target ∈ lost → .relation id ∈ lost

/-- A relation rests on its source and on its target. -/
inductive RestsOn (g : Graph α) : Entity → Entity → Prop
  | source {id : RelationId} {r : Relation} :
      g.relation? id = some r → RestsOn g (.relation id) (.claim r.source)
  | target {id : RelationId} {r : Relation} :
      g.relation? id = some r → RestsOn g (.relation id) r.target

/-- What is left of a graph when only some entities are kept. -/
structure Leaves (g : Graph α) (kept : Entity → Prop) (g' : Graph α) : Prop where
  claim? : ∀ {id c}, g'.claim? id = some c ↔ g.claim? id = some c ∧ kept (.claim id)
  relation? : ∀ {id r}, g'.relation? id = some r ↔ g.relation? id = some r ∧ kept (.relation id)

/-- What goes when a live entity is deleted: the entity, and all that rests on it in the end. -/
def FallsWith (g : Graph α) (entity other : Entity) : Prop :=
  g.contains entity ∧ ReflTransGen g.RestsOn other entity

section Cascade

variable {relations : Table RelationId Relation} {pending : List RelationId}

/-- Lists of relations are dealt with one after the other. -/
theorem cascade_append (relations : Table RelationId Relation) (first second : List RelationId) :
    cascade relations (first ++ second) =
      ((cascade relations first).1 ++ (cascade (cascade relations first).2 second).1,
        (cascade (cascade relations first).2 second).2) := by
  fun_induction cascade relations first with
  | case1 relations => rw [List.nil_append, List.nil_append]
  | case2 relations id pending hlive rest gone left heq ih =>
      rw [heq, List.append_assoc] at ih
      rw [List.cons_append, cascade, dif_pos hlive]
      simp only [rest] at ih
      simp only [ih, List.cons_append]
  | case3 relations id pending hdead ih =>
      rw [List.cons_append, cascade, dif_neg hdead]
      exact ih

theorem nodup_cascade (relations : Table RelationId Relation) (pending : List RelationId) :
    (cascade relations pending).1.Nodup := by
  fun_induction cascade relations pending with
  | case1 => exact .nil
  | case2 relations id pending hlive rest gone left heq ih =>
      rw [heq] at ih
      refine List.nodup_cons.2 ⟨fun hmem => ?_, ih⟩
      have hgone : id ∈ (cascade rest (pointingAt rest id ++ pending)).1 := by
        rw [heq]
        exact hmem
      have hrest := Table.contains_iff.1 (contains_of_mem_cascade hgone)
      exact (Table.mem_keys_erase.1 hrest).1 rfl
  | case3 _ _ _ _ ih => exact ih

/-- What holds of the live relations of a list, and of whatever points at a relation that it holds of, holds
of all that a cascade removes. -/
theorem cascade_induction (h : OwnKeys relations) {P : RelationId → Prop}
    (hpending : ∀ id ∈ pending, relations.contains id → P id)
    (hstep : ∀ id r other, relations.get? id = some r → r.target = .relation other → P other → P id) :
    ∀ id ∈ (cascade relations pending).1, P id := by
  fun_induction cascade relations pending with
  | case1 => simp
  | case2 relations first pending hlive rest gone left heq ih =>
      rw [heq] at ih
      have hfirst : P first := hpending first List.mem_cons_self hlive
      refine List.forall_mem_cons.2 ⟨hfirst, ih (h.erase first) (fun id hmem hrest => ?_) ?_⟩
      · rcases List.mem_append.1 hmem with hmem | hmem
        · obtain ⟨r, hget, htarget⟩ := (h.erase first).mem_pointingAt.1 hmem
          exact hstep id r first (Table.get?_of_erase hget) htarget hfirst
        · rw [Table.contains_iff] at hrest
          exact hpending id (List.mem_cons_of_mem _ hmem)
            (Table.contains_iff.2 (Table.mem_keys_erase.1 hrest).2)
      · exact fun id r other hget => hstep id r other (Table.get?_of_erase hget)
  | case3 relations first pending hdead ih =>
      exact ih h (fun id hmem => hpending id (List.mem_cons_of_mem _ hmem)) hstep

/-- What a cascade removes was on its list, or points at what it removed before. -/
theorem pending_or_target_of_cascade (h : OwnKeys relations) {before after : List RelationId}
    {id : RelationId} (hgone : (cascade relations pending).1 = before ++ id :: after) :
    id ∈ pending ∨
      ∃ r other, relations.get? id = some r ∧ r.target = .relation other ∧ other ∈ before := by
  fun_induction cascade relations pending generalizing before with
  | case1 => simp at hgone
  | case2 relations first pending hlive rest gone left heq ih =>
      rw [heq] at ih
      cases before with
      | nil =>
          obtain ⟨rfl, -⟩ := List.cons.inj hgone
          exact .inl List.mem_cons_self
      | cons head before =>
          obtain ⟨rfl, htail⟩ := List.cons.inj hgone
          rcases ih (h.erase first) htail with hmem | ⟨r, other, hget, htarget, hbefore⟩
          · rcases List.mem_append.1 hmem with hmem | hmem
            · obtain ⟨r, hget, htarget⟩ := (h.erase first).mem_pointingAt.1 hmem
              exact .inr ⟨r, first, Table.get?_of_erase hget, htarget, List.mem_cons_self⟩
            · exact .inl (List.mem_cons_of_mem _ hmem)
          · exact .inr ⟨r, other, Table.get?_of_erase hget, htarget, List.mem_cons_of_mem _ hbefore⟩
  | case3 relations first pending hdead ih =>
      rcases ih h hgone with hmem | htarget
      · exact .inl (List.mem_cons_of_mem _ hmem)
      · exact .inr htarget

/-- From a list of relations from older to younger, a cascade removes what a relation points at before that
relation, if it removes both. -/
theorem target_before_of_cascade (h : OwnKeys relations)
    (holder : ∀ id r other, relations.get? id = some r → r.target = .relation other →
      other.index < id.index)
    (hpending : pending.Pairwise fun a b => a.index < b.index)
    {before after : List RelationId} {id other : RelationId} {r : Relation}
    (hsplit : (cascade relations pending).1 = before ++ id :: after)
    (hget : relations.get? id = some r) (htarget : r.target = .relation other)
    (hgone : other ∈ (cascade relations pending).1) : other ∈ before := by
  have hdirect : ∀ {r' : Relation} {other' : RelationId} {before' : List RelationId},
      relations.get? id = some r' → r'.target = .relation other' →
      other' ∈ before' → other ∈ before' := by
    intro r' other' before' hget' htarget' hmem
    obtain rfl := Option.some.inj (hget.symm.trans hget')
    obtain rfl := Entity.relation.inj (htarget.symm.trans htarget')
    exact hmem
  rcases pending_or_target_of_cascade h hsplit with hid | ⟨r', other', hget', htarget', hmem⟩
  swap
  · exact hdirect hget' htarget' hmem
  -- The relation stands on the list. What it points at is older, so it goes with an earlier part of the list.
  obtain ⟨first, second, rfl⟩ := List.append_of_mem hid
  obtain ⟨-, hsecond, hacross⟩ := List.pairwise_append.1 hpending
  have hfirst : other ∈ (cascade relations first).1 := by
    have hall : ∀ x ∈ (cascade relations (first ++ id :: second)).1,
        x ∈ (cascade relations first).1 ∨ id.index ≤ x.index := by
      refine cascade_induction h (fun x hmem hlive => ?_) fun x r' next hget' htarget' hnext => ?_
      · rcases List.mem_append.1 hmem with hmem | hmem
        · exact .inl (mem_cascade_of_pending hmem hlive)
        · rcases List.mem_cons.1 hmem with rfl | hmem
          · exact .inr (Nat.le_refl _)
          · exact .inr (Nat.le_of_lt ((List.pairwise_cons.1 hsecond).1 x hmem))
      · rcases hnext with hnext | hnext
        · exact .inl (mem_cascade_of_target h hnext hget' htarget')
        · exact .inr (Nat.le_of_lt (Nat.lt_of_le_of_lt hnext (holder x r' next hget' htarget')))
    rcases hall other hgone with hfirst | hyounger
    · exact hfirst
    · exact absurd (holder id r other hget htarget) (Nat.not_lt.2 hyounger)
  rw [cascade_append] at hsplit
  rcases List.append_eq_append_iff.1 hsplit with ⟨more, rfl, -⟩ | ⟨more, hmore, hrest⟩
  · exact List.mem_append_left _ hfirst
  · cases more with
    | nil =>
        rw [hmore, List.append_nil] at hfirst
        exact hfirst
    | cons head more =>
        obtain ⟨rfl, -⟩ := List.cons.inj hrest
        rcases pending_or_target_of_cascade h hmore with hmem | ⟨r', other', hget', htarget', hmem⟩
        · exact absurd (hacross id hmem id List.mem_cons_self) (Nat.lt_irrefl _)
        · exact hdirect hget' htarget' hmem

end Cascade

/-! ### Deletions -/

theorem WellFormed.touching_ascending (h : g.WellFormed) (id : ClaimId) :
    (g.touching id).Pairwise fun a b => a.index < b.index := by
  have hkeys : g.relations.keys.Pairwise fun a b => a.index < b.index :=
    List.pairwise_map.2 (g.relations.ascending.imp of_decide_eq_true)
  rw [← h.ownKeys.ids_values] at hkeys
  exact hkeys.sublist (List.filter_sublist.map _)

/-- The relations that a deletion starts from: all that touch a claim, or the relation itself. -/
def startOf (g : Graph α) : Entity → List RelationId
  | .claim id => g.touching id
  | .relation id => [id]

theorem delete_of_live {entity : Entity} (hlive : g.contains entity) :
    (g.delete entity).1.relations = (cascade g.relations (g.startOf entity)).1 ∧
    (g.delete entity).1.claims = match entity with
      | .claim id => [id]
      | .relation _ => [] := by
  rw [delete.eq_def, if_pos hlive]
  cases entity <;> exact ⟨rfl, rfl⟩

theorem delete_of_dead {entity : Entity} (hdead : g.contains entity = false) :
    g.delete entity = (.none, g) := by
  rw [delete.eq_def, if_neg (by simp [hdead])]

theorem WellFormed.startOf_ascending (h : g.WellFormed) (entity : Entity) :
    (g.startOf entity).Pairwise fun a b => a.index < b.index := by
  cases entity with
  | claim id => exact h.touching_ascending id
  | relation id => exact List.pairwise_singleton ..

namespace Removes

variable {deleted : Deleted}

theorem names_of_restsOn (h : g.Removes deleted g') {entity other : Entity}
    (hrests : g.RestsOn entity other) (hnamed : deleted.Names other) : deleted.Names entity := by
  cases hrests with
  | source hr => exact h.touching hr hnamed (.inl rfl)
  | @target id r hr =>
      cases htarget : r.target with
      | claim c =>
          rw [htarget] at hnamed
          exact h.touching hr hnamed (.inr htarget)
      | relation other =>
          rw [htarget] at hnamed
          exact h.pointing hr hnamed htarget

theorem leaves (h : g.Removes deleted g') : g.Leaves (fun other => ¬deleted.Names other) g' where
  claim? {id c} := by
    rw [h.claim?, Deleted.Names]
    split <;> simp_all
  relation? {id r} := by
    rw [h.relation?, Deleted.Names]
    split <;> simp_all

theorem contains_iff (h : g.Removes deleted g') {entity : Entity} :
    g'.contains entity ↔ g.contains entity ∧ ¬deleted.Names entity := by
  cases entity with
  | claim id => simp only [contains_claim_iff, h.leaves.claim?, exists_and_right]
  | relation id => simp only [contains_relation_iff, h.leaves.relation?, exists_and_right]

theorem restsOn_iff (h : g.Removes deleted g') {entity other : Entity} :
    g'.RestsOn entity other ↔ g.RestsOn entity other ∧ ¬deleted.Names entity := by
  constructor
  · intro hrests
    cases hrests with
    | source hr =>
        obtain ⟨hr, hkept⟩ := h.leaves.relation?.1 hr
        exact ⟨.source hr, hkept⟩
    | target hr =>
        obtain ⟨hr, hkept⟩ := h.leaves.relation?.1 hr
        exact ⟨.target hr, hkept⟩
  · rintro ⟨hrests, hkept⟩
    cases hrests with
    | source hr => exact .source (h.leaves.relation?.2 ⟨hr, hkept⟩)
    | target hr => exact .target (h.leaves.relation?.2 ⟨hr, hkept⟩)

/-- What goes with an entity, other than what has gone already, is as it was before. -/
theorem fallsWith_iff (h : g.Removes deleted g') {entity other : Entity} (hkept : ¬deleted.Names other) :
    g'.FallsWith entity other ↔ g.FallsWith entity other := by
  constructor
  · rintro ⟨hlive, hchain⟩
    have hmono : g'.RestsOn ≤ g.RestsOn := fun _ _ hrests => (h.restsOn_iff.1 hrests).1
    exact ⟨h.contains_of hlive, ReflTransGen.mono hmono _ _ hchain⟩
  · rintro ⟨hlive, hchain⟩
    induction hchain using ReflTransGen.head_induction_on with
    | refl => exact ⟨h.contains_iff.2 ⟨hlive, hkept⟩, .refl⟩
    | head hrests _ ih =>
        have hnext := fun hnamed => hkept (h.names_of_restsOn hrests hnamed)
        exact ⟨(ih hnext).1, (ih hnext).2.head (h.restsOn_iff.2 ⟨hrests, hkept⟩)⟩

end Removes

/-- A deletion names what is in every closed set. -/
theorem mem_of_names_delete (h : g.WellFormed) {entity other : Entity} {lost : Set Entity}
    (hclosed : g.Closed entity lost) (hnamed : (g.delete entity).1.Names other) : other ∈ lost := by
  cases hlive : g.contains entity with
  | false =>
      rw [delete_of_dead hlive] at hnamed
      cases other <;> simp [Deleted.Names, Deleted.none] at hnamed
  | true =>
      obtain ⟨hrelations, hclaims⟩ := delete_of_live hlive
      have hentity := hclosed.entity hlive
      cases other with
      | claim id =>
          simp only [Deleted.Names, hclaims] at hnamed
          cases entity with
          | claim c => exact List.mem_singleton.1 hnamed ▸ hentity
          | relation c => simp at hnamed
      | relation id =>
          simp only [Deleted.Names, hrelations] at hnamed
          refine cascade_induction h.ownKeys (P := fun id => .relation id ∈ lost) ?_ ?_ id hnamed
          · intro other hmem _
            cases entity with
            | claim c =>
                obtain ⟨r, hr, hsource | htarget⟩ := h.mem_touching.1 hmem
                · exact hclosed.source hr (hsource ▸ hentity)
                · exact hclosed.target hr (htarget ▸ hentity)
            | relation c => exact List.mem_singleton.1 hmem ▸ hentity
          · intro other r next hr htarget hnext
            exact hclosed.target hr (htarget ▸ hnext)

theorem closed_fallsWith (g : Graph α) (entity : Entity) : g.Closed entity {other | g.FallsWith entity other} where
  entity hlive := ⟨hlive, .refl⟩
  source hr hfalls := ⟨hfalls.1, hfalls.2.head (.source hr)⟩
  target hr hfalls := ⟨hfalls.1, hfalls.2.head (.target hr)⟩

theorem closed_delete (h : g.WellFormed) (entity : Entity) :
    g.Closed entity {other | (g.delete entity).1.Names other} where
  entity hlive := by
    obtain ⟨hrelations, hclaims⟩ := delete_of_live hlive
    cases entity with
    | claim id => simp [Deleted.Names, hclaims]
    | relation id =>
        simp only [Set.mem_ofPred_eq, Deleted.Names, hrelations]
        exact mem_cascade_of_pending List.mem_cons_self hlive
  source hr hnamed := (removes_delete h entity).names_of_restsOn (.source hr) hnamed
  target hr hnamed := (removes_delete h entity).names_of_restsOn (.target hr) hnamed

theorem names_delete_iff (h : g.WellFormed) {entity other : Entity} :
    (g.delete entity).1.Names other ↔ g.FallsWith entity other := by
  constructor
  · exact mem_of_names_delete h (g.closed_fallsWith entity)
  · rintro ⟨hlive, hchain⟩
    induction hchain using ReflTransGen.head_induction_on with
    | refl => exact (closed_delete h entity).entity hlive
    | head hrests _ ih => exact (removes_delete h entity).names_of_restsOn hrests ih

theorem fallsWith_claim_iff {entity : Entity} {id : ClaimId} :
    g.FallsWith entity (.claim id) ↔ g.contains entity ∧ entity = .claim id := by
  apply and_congr_right
  intro _
  constructor
  · intro hchain
    rcases ReflTransGen.cases_head hchain with heq | ⟨_, hrests, -⟩
    · exact heq.symm
    · cases hrests
  · rintro rfl
    exact .refl

/-- The handles of a deletion stand once each, and a relation stands after the one that it points at. -/
structure InCascadeOrder (g : Graph α) (deleted : Deleted) : Prop where
  nodup_claims : deleted.claims.Nodup
  nodup_relations : deleted.relations.Nodup
  target_before : ∀ {before id after r other}, deleted.relations = before ++ id :: after →
    g.relation? id = some r → r.target = .relation other → other ∈ deleted.relations → other ∈ before

theorem inCascadeOrder_delete (h : g.WellFormed) (entity : Entity) :
    g.InCascadeOrder (g.delete entity).1 := by
  cases hlive : g.contains entity with
  | false =>
      rw [delete_of_dead hlive]
      exact ⟨.nil, .nil, fun hsplit => by simp [Deleted.none] at hsplit⟩
  | true =>
      obtain ⟨hrelations, hclaims⟩ := delete_of_live hlive
      refine ⟨?_, ?_, fun hsplit hr htarget hgone => ?_⟩
      · rw [hclaims]
        cases entity with
        | claim id => exact List.nodup_singleton id
        | relation id => exact .nil
      · rw [hrelations]
        exact nodup_cascade ..
      · rw [hrelations] at hsplit hgone
        exact target_before_of_cascade h.ownKeys (fun _ _ _ => h.target_older) (h.startOf_ascending entity)
          hsplit hr htarget hgone

section Run

variable [Scalar α]

/-- Of some deletions one after the other, each takes what goes with its entity in the first graph, as far as
that is still there. -/
theorem leaves_deletions (h : g.WellFormed) (entities : List Entity) :
    g.Leaves (fun other => ∀ entity ∈ entities, ¬g.FallsWith entity other)
      (g.after (entities.map .delete)) := by
  induction entities generalizing g with
  | nil => constructor <;> simp [after]
  | cons first rest ih =>
      have hremoves := removes_delete h first
      obtain ⟨hclaims, hrelations⟩ := ih (hremoves.wellFormed h)
      -- of what the first deletion leaves, the others take what they would have taken before it
      have hkept : ∀ other, (¬(g.delete first).1.Names other ∧
          ∀ entity ∈ rest, ¬(g.delete first).2.FallsWith entity other) ↔
          ∀ entity ∈ first :: rest, ¬g.FallsWith entity other := by
        intro other
        rw [names_delete_iff h, List.forall_mem_cons]
        refine and_congr_right fun hfirst => ?_
        simp only [hremoves.fallsWith_iff (mt (names_delete_iff h).1 hfirst)]
      refine ⟨fun {id c} => hclaims.trans ?_, fun {id r} => hrelations.trans ?_⟩
      · rw [hremoves.leaves.claim?, and_assoc, hkept]
      · rw [hremoves.leaves.relation?, and_assoc, hkept]

theorem deletions_perm (h : g.WellFormed) {first second : List Entity} (hperm : first.Perm second) :
    (g.after (first.map .delete)).claims = (g.after (second.map .delete)).claims ∧
    (g.after (first.map .delete)).relations = (g.after (second.map .delete)).relations := by
  have hfirst := leaves_deletions h first
  have hsecond := leaves_deletions h second
  simp only [hperm.mem_iff] at hfirst
  constructor
  · exact Table.ext_get? fun id => Option.ext fun c => hfirst.claim?.trans hsecond.claim?.symm
  · exact Table.ext_get? fun id => Option.ext fun r => hfirst.relation?.trans hsecond.relation?.symm

/-- A deletion takes the least set that holds the entity and whatever starts from or points at something in
it. All of that was live, no other claim is among it, and what is not among it stays as it was. The handles
are listed in the order in which they went. Nothing happens to a graph when what is to be deleted is dead, and
the order of several deletions makes no difference to the claims and relations that are left. -/
theorem delete_takes_least (h : g.Reachable) (entity : Entity) :
    IsLeast {lost | g.Closed entity lost} {other | (g.delete entity).1.Names other} ∧
    (∀ other, (g.delete entity).1.Names other → g.contains other) ∧
    (∀ id, (g.delete entity).1.Names (.claim id) → entity = .claim id) ∧
    g.Leaves (fun other => ¬(g.delete entity).1.Names other) (g.delete entity).2 ∧
    (g.delete entity).2.nextClaim = g.nextClaim ∧
    (g.delete entity).2.nextRelation = g.nextRelation ∧
    g.InCascadeOrder (g.delete entity).1 ∧
    (g.contains entity = false → g.delete entity = (.none, g)) ∧
    ∀ first second : List Entity, first.Perm second →
      (g.after (first.map .delete)).claims = (g.after (second.map .delete)).claims ∧
      (g.after (first.map .delete)).relations = (g.after (second.map .delete)).relations := by
  have hwf := h.wellFormed
  have hremoves := removes_delete hwf entity
  refine ⟨⟨closed_delete hwf entity, fun lost hclosed other => mem_of_names_delete hwf hclosed⟩, ?_, ?_,
    hremoves.leaves, hremoves.nextClaim, hremoves.nextRelation, inCascadeOrder_delete hwf entity,
    delete_of_dead, fun first second => deletions_perm hwf⟩
  · intro other hnamed
    cases other with
    | claim id => exact hremoves.claims_live id hnamed
    | relation id => exact hremoves.relations_live id hnamed
  · intro id hnamed
    exact (fallsWith_claim_iff.1 ((names_delete_iff hwf).1 hnamed)).2

/-- The last relation starts from the deleted claim and points at a relation that goes as well, and the third
one goes only because of the first. -/
theorem delete_takes_least_of_shared : ∃ g : Graph Float32, g.Reachable ∧
    (g.delete (.claim ⟨1⟩)).1 = ⟨[⟨1⟩], [⟨0⟩, ⟨2⟩, ⟨1⟩, ⟨3⟩]⟩ ∧
    IsLeast {lost | g.Closed (.claim ⟨1⟩) lost}
      {other | Deleted.Names ⟨[⟨1⟩], [⟨0⟩, ⟨2⟩, ⟨1⟩, ⟨3⟩]⟩ other} := by
  obtain ⟨g, hg, hlive, hrelations⟩ : ∃ g : Graph Float32, g.Reachable ∧ g.contains (.claim ⟨1⟩) ∧
      g.relations.entries = [
        (⟨0⟩, ⟨⟨0⟩, ⟨1⟩, .claim ⟨0⟩, none, .plain⟩), (⟨1⟩, ⟨⟨1⟩, ⟨2⟩, .claim ⟨1⟩, none, .plain⟩),
        (⟨2⟩, ⟨⟨2⟩, ⟨2⟩, .relation ⟨0⟩, none, .plain⟩), (⟨3⟩, ⟨⟨3⟩, ⟨1⟩, .relation ⟨1⟩, none, .plain⟩)] :=
    ⟨Graph.empty.after [.addClaim "root" .plain, .addClaim "claim" .plain, .addClaim "other" .plain,
      .addRelation [⟨1⟩] (.claim ⟨0⟩) none .plain, .addRelation [⟨2⟩] (.claim ⟨1⟩) none .plain,
      .addRelation [⟨2⟩] (.relation ⟨0⟩) none .plain, .addRelation [⟨1⟩] (.relation ⟨1⟩) none .plain],
      ⟨_, rfl⟩, rfl, rfl⟩
  have hdelete : (g.delete (.claim ⟨1⟩)).1 = ⟨[⟨1⟩], [⟨0⟩, ⟨2⟩, ⟨1⟩, ⟨3⟩]⟩ := by
    rw [delete.eq_def, if_pos hlive]
    simp [cascade, pointingAt, touching, Table.contains, Table.erase, Table.values, hrelations]
  obtain ⟨hleast, -⟩ := delete_takes_least hg (.claim ⟨1⟩)
  rw [hdelete] at hleast
  exact ⟨g, hg, hdelete, hleast⟩

end Run

end Graph

end ArgumentDiagram
