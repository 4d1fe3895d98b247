import ArgumentDiagram.Proofs.Graph.Feeds

/-!
Paths of relations. A path leads from a claim to a claim, each of its relations starting at the claim where
the chain of targets of the one before it ends. Its last relation comes in through exactly one of the
relations that point at its end, and at each relation of the chain through exactly one that points at that.
-/

open Relation

namespace ArgumentDiagram.Graph

variable {α : Type} {g : Graph α}

def IsPath (g : Graph α) : ClaimId → List RelationId → ClaimId → Prop
  | c, [], d => c = d
  | c, id :: rest, d => ∃ r b, g.relation? id = some r ∧ r.source = c ∧ g.EndsAt (.relation id) b ∧
      IsPath g b rest d

/-- A path whose last relation has the given relation in its chain of targets, at the start or later. -/
def IsPathInto (g : Graph α) (c : ClaimId) (path : List RelationId) (id : RelationId) : Prop :=
  ∃ before last r, path = before ++ [last] ∧ g.relation? last = some r ∧ g.IsPath c before r.source ∧
    ReflTransGen g.PointsAt (.relation last) (.relation id)

theorem isPath_snoc {c d : ClaimId} {path : List RelationId} {id : RelationId} :
    g.IsPath c (path ++ [id]) d ↔ ∃ r, g.relation? id = some r ∧ g.IsPath c path r.source ∧
      g.EndsAt (.relation id) d := by
  induction path generalizing c with
  | nil =>
      constructor
      · rintro ⟨r, b, hr, rfl, hends, rfl⟩
        exact ⟨r, hr, rfl, hends⟩
      · rintro ⟨r, hr, rfl, hends⟩
        exact ⟨r, d, hr, rfl, hends, rfl⟩
  | cons first rest ih =>
      constructor
      · rintro ⟨r, b, hr, rfl, hends, hrest⟩
        obtain ⟨last, hlast, hpath, hd⟩ := ih.1 hrest
        exact ⟨last, hlast, ⟨r, b, hr, rfl, hends, hpath⟩, hd⟩
      · rintro ⟨last, hlast, ⟨r, b, hr, rfl, hends, hpath⟩, hd⟩
        exact ⟨r, b, hr, rfl, hends, ih.2 ⟨last, hlast, hpath, hd⟩⟩

theorem isPath_unique {c d d' : ClaimId} {path : List RelationId} (h : g.IsPath c path d)
    (h' : g.IsPath c path d') : d = d' := by
  induction path generalizing c with
  | nil => exact h.symm.trans h'
  | cons first rest ih =>
      obtain ⟨_, b, -, -, hends, hrest⟩ := h
      obtain ⟨_, b', -, -, hends', hrest'⟩ := h'
      obtain rfl := endsAt_unique hends hends'
      exact ih hrest hrest'

theorem exists_isPath_iff {c d : ClaimId} : (∃ path, g.IsPath c path d) ↔ ReflTransGen g.Feeds c d := by
  constructor
  · rintro ⟨path, h⟩
    induction path generalizing c with
    | nil => exact h ▸ .refl
    | cons first rest ih =>
        obtain ⟨r, b, hr, hsource, hends, hrest⟩ := h
        exact (ih hrest).head ⟨first, r, hr, hsource, hends⟩
  · intro h
    induction h using ReflTransGen.head_induction_on with
    | refl => exact ⟨[], rfl⟩
    | head hfeeds _ ih =>
        obtain ⟨id, r, hr, hsource, hends⟩ := hfeeds
        obtain ⟨path, hpath⟩ := ih
        exact ⟨id :: path, r, _, hr, hsource, hends, hpath⟩

/-! ### The way a path comes in -/

theorem isPath_iff (h : g.WellFormed) {c d : ClaimId} {path : List RelationId} :
    g.IsPath c path d ↔ (c = d ∧ path = []) ∨ ∃ id ∈ g.incoming (.claim d), g.IsPathInto c path id := by
  constructor
  · intro hpath
    rcases List.eq_nil_or_concat' path with rfl | ⟨before, last, rfl⟩
    · exact .inl ⟨hpath, rfl⟩
    · obtain ⟨r, hr, hbefore, hends⟩ := isPath_snoc.1 hpath
      rcases ReflTransGen.cases_tail hends with heq | ⟨entity, hchain, hstep⟩
      · cases heq
      · cases hstep with
        | @of_target id r' _ hr' htarget =>
            refine .inr ⟨id, (mem_incoming_iff h).2 ⟨r', hr', htarget⟩, ?_⟩
            exact ⟨before, last, r, rfl, hr, hbefore, hchain⟩
  · rintro (⟨rfl, rfl⟩ | ⟨id, hmem, before, last, r, rfl, hr, hbefore, hchain⟩)
    · rfl
    · obtain ⟨r', hr', htarget⟩ := (mem_incoming_iff h).1 hmem
      exact isPath_snoc.2 ⟨r, hr, hbefore, hchain.tail (.of_target hr' htarget)⟩

theorem isPathInto_iff (h : g.WellFormed) {c : ClaimId} {path : List RelationId} {id : RelationId}
    {r : Relation} (hr : g.relation? id = some r) :
    g.IsPathInto c path id ↔ (∃ before, path = before ++ [id] ∧ g.IsPath c before r.source) ∨
      ∃ other ∈ g.incoming (.relation id), g.IsPathInto c path other := by
  constructor
  · rintro ⟨before, last, r', rfl, hr', hbefore, hchain⟩
    rcases ReflTransGen.cases_tail hchain with heq | ⟨entity, hrest, hstep⟩
    · cases heq
      obtain rfl := Option.some.inj (hr.symm.trans hr')
      exact .inl ⟨before, rfl, hbefore⟩
    · cases hstep with
      | @of_target other relation _ hother htarget =>
          refine .inr ⟨other, (mem_incoming_iff h).2 ⟨relation, hother, htarget⟩, ?_⟩
          exact ⟨before, last, r', rfl, hr', hbefore, hrest⟩
  · rintro (⟨before, rfl, hbefore⟩ | ⟨other, hmem, before, last, r', rfl, hr', hbefore, hchain⟩)
    · exact ⟨before, id, r, rfl, hr, hbefore, .refl⟩
    · obtain ⟨relation, hother, htarget⟩ := (mem_incoming_iff h).1 hmem
      exact ⟨before, last, r', rfl, hr', hbefore, hchain.tail (.of_target hother htarget)⟩

/-- A chain of targets does not come back to what its first relation points at. -/
theorem WellFormed.not_chain_of_incoming (h : g.WellFormed) {id other : RelationId} {target : Entity}
    (hid : id ∈ g.incoming target) (hother : other ∈ g.incoming target) (hne : id ≠ other) :
    ¬ReflTransGen g.PointsAt (.relation id) (.relation other) := by
  intro hchain
  obtain ⟨r, hr, htarget⟩ := (mem_incoming_iff h).1 hid
  obtain ⟨r', hr', htarget'⟩ := (mem_incoming_iff h).1 hother
  rcases ReflTransGen.cases_head hchain with heq | ⟨next, hstep, hrest⟩
  · exact hne (Entity.relation.inj heq)
  · obtain rfl := pointsAt_unique (.of_target hr htarget) hstep
    cases target with
    | claim c =>
        rcases ReflTransGen.cases_head hrest with heq | ⟨_, hstep, -⟩
        · cases heq
        · exact not_pointsAt_claim hstep
    | relation old =>
        have holder := h.target_older hr' htarget'
        have hyounger := h.index_le_of_pointsAt hrest
        omega

theorem isPathInto_unique (h : g.WellFormed) {c : ClaimId} {path : List RelationId} {target : Entity}
    {id other : RelationId} (hid : id ∈ g.incoming target) (hother : other ∈ g.incoming target)
    (hpath : g.IsPathInto c path id) (hpath' : g.IsPathInto c path other) : id = other := by
  obtain ⟨before, last, _, rfl, -, -, hchain⟩ := hpath
  obtain ⟨before', last', _, heq, -, -, hchain'⟩ := hpath'
  obtain ⟨-, hlast⟩ := List.append_inj' heq rfl
  obtain rfl := List.singleton_inj.1 hlast
  by_contra hne
  rcases ReflTransGen.total_of_right_unique pointsAt_unique hchain hchain' with hsome | hsome
  · exact h.not_chain_of_incoming hid hother hne hsome
  · exact h.not_chain_of_incoming hother hid (Ne.symm hne) hsome

theorem not_isPathInto_of_last (h : g.WellFormed) {c : ClaimId} {before : List RelationId}
    {id other : RelationId} (hother : other ∈ g.incoming (.relation id)) :
    ¬g.IsPathInto c (before ++ [id]) other := by
  rintro ⟨before', last, _, heq, -, -, hchain⟩
  obtain ⟨-, hlast⟩ := List.append_inj' heq rfl
  obtain rfl := List.singleton_inj.1 hlast
  obtain ⟨r, hr, htarget⟩ := (mem_incoming_iff h).1 hother
  have hyounger := h.target_older hr htarget
  have holder := h.index_le_of_pointsAt hchain
  omega

end ArgumentDiagram.Graph
