import ArgumentDiagram.Proofs.Geometry.Exact
import Mathlib.Tactic.Ring
import ArgumentDiagram.Drawing.Scene
import ArgumentDiagram.Graph.Positions
import ArgumentDiagram.Proofs.Geometry.Hull
import ArgumentDiagram.Proofs.Graph.Points
import ArgumentDiagram.Proofs.Graph.Reachable

/-!
Points of entities as they are asked for. The point of a relation asks for those of its source and its target, and
nothing but the age of relations keeps that from going around. Main statement: it always comes to an end, all that
is live has a point, a box, a line and a listed center, and in exact arithmetic the center of a relation lies half
way between those of its ends, within the bounds of the claims.
-/

namespace ArgumentDiagram

namespace Graph

section

variable {α : Type} [Scalar α] {g : Graph α} {ofClaim : Claim α → Point α}

omit [Scalar α] in
/-- The point of one entity asks for that of another. -/
inductive Asks (g : Graph α) : Entity → Entity → Prop
  | source {id : RelationId} {r : Relation} : g.relation? id = some r → Asks g (.relation id) (.claim r.source)
  | target {id : RelationId} {r : Relation} : g.relation? id = some r → Asks g (.relation id) r.target

/-- Points that are made of each other, whatever the ages of the relations. -/
structure SolvesPoints (g : Graph α) (ofClaim : Claim α → Point α) (points : Entity → Option (Point α)) : Prop where
  claim : ∀ id, points (.claim id) = (g.claim? id).map ofClaim
  relation : ∀ id, points (.relation id) = (g.relation? id).bind fun r =>
    (points (.claim r.source)).bind fun source => (points r.target).map source.midpoint

/-- What gets smaller with every question: claims ask for nothing, and relations for older ones. -/
def rankOf : Entity → Nat
  | .claim _ => 0
  | .relation id => id.index + 1

omit [Scalar α] in
theorem WellFormed.wellFounded_asks (h : g.WellFormed) : WellFounded fun next entity => g.Asks entity next := by
  apply Subrelation.wf (r := InvImage (· < ·) rankOf)
  · intro next entity hasks
    cases hasks with
    | source _ => exact Nat.succ_pos _
    | @target id r hr =>
        show rankOf r.target < id.index + 1
        cases htarget : r.target with
        | claim c => exact Nat.succ_pos _
        | relation other => exact Nat.succ_lt_succ (h.target_older hr htarget)
  · exact InvImage.wf rankOf Nat.lt_wfRel.wf

theorem WellFormed.solvesPoints (h : g.WellFormed) (ofClaim : Claim α → Point α) :
    g.SolvesPoints ofClaim (g.pointOf ofClaim) where
  claim _ := rfl
  relation id := by
    cases hr : g.relation? id with
    | none =>
        have hdead : ¬(g.relationPoint ofClaim id).isSome := fun hsome => by
          obtain ⟨r, hr'⟩ := contains_relation_iff.1 (live_of_relationPoint hsome)
          cases hr.symm.trans hr'
        exact Option.not_isSome_iff_eq_none.1 hdead
    | some r => exact h.relationPoint_eq ofClaim hr

/-- By induction along the questions: the points that are asked for are the same. -/
theorem WellFormed.solvesPoints_iff (h : g.WellFormed) {points : Entity → Option (Point α)} :
    g.SolvesPoints ofClaim points ↔ points = g.pointOf ofClaim := by
  constructor
  · intro hpoints
    have hsolves := h.solvesPoints ofClaim
    funext entity
    induction entity using h.wellFounded_asks.induction with
    | _ entity ih =>
        cases entity with
        | claim id => exact (hpoints.claim id).trans (hsolves.claim id).symm
        | relation id =>
            rw [hpoints.relation, hsolves.relation]
            cases hr : g.relation? id with
            | none => rfl
            | some r => rw [Option.bind_some, Option.bind_some, ih _ (.source hr), ih _ (.target hr)]
  · rintro rfl
    exact h.solvesPoints ofClaim

/-- What the points of claims have and midpoints keep, all points have. -/
theorem WellFormed.pointOf_induction (h : g.WellFormed) {P : Point α → Prop}
    (hclaim : ∀ id claim, g.claim? id = some claim → P (ofClaim claim))
    (hmidpoint : ∀ p q, P p → P q → P (p.midpoint q)) {entity : Entity} {p : Point α}
    (hp : g.pointOf ofClaim entity = some p) : P p := by
  induction entity using h.wellFounded_asks.induction generalizing p with
  | _ entity ih =>
      cases entity with
      | claim id =>
          obtain ⟨claim, hlive, rfl⟩ := Option.map_eq_some_iff.1 hp
          exact hclaim id claim hlive
      | relation id =>
          rw [(h.solvesPoints ofClaim).relation, Option.bind_eq_some_iff] at hp
          obtain ⟨r, hr, hp⟩ := hp
          obtain ⟨source, hsource, hp⟩ := Option.bind_eq_some_iff.1 hp
          obtain ⟨target, htarget, rfl⟩ := Option.map_eq_some_iff.1 hp
          exact hmidpoint source target (ih _ (.source hr) hsource) (ih _ (.target hr) htarget)

theorem WellFormed.exists_pointOf (h : g.WellFormed) (ofClaim : Claim α → Point α) {entity : Entity}
    (hlive : g.contains entity) : ∃ p, g.pointOf ofClaim entity = some p := by
  rw [← h.isSome_pointOf ofClaim, Option.isSome_iff_exists] at hlive
  exact hlive

/-- The line of a live relation has both ends, so a frame leaves none out. -/
theorem WellFormed.isSome_ends? {s : Scene α} (h : s.graph.WellFormed) {r : Relation}
    (hr : r ∈ s.graph.relations.values) : (s.ends? r).isSome := by
  obtain ⟨id, hr⟩ := Table.mem_values_iff.1 hr
  obtain ⟨source, hsource⟩ := Option.isSome_iff_exists.1 ((h.isSome_boxOf _).trans (h.source_live hr))
  obtain ⟨target, htarget⟩ := Option.isSome_iff_exists.1 ((h.isSome_boxOf _).trans (h.target_live hr))
  rw [Scene.ends?, hsource, htarget]
  rfl

theorem WellFormed.relationForm_eq [WrittenScalar α] (h : g.WellFormed) {r : Relation}
    (hr : r ∈ g.relations.values) : ∃ p, g.center (.relation r.id) = some p ∧ g.relationForm r =
      .object [("id", .nat r.id.index), ("source", .nat r.source.index), ("target", entityForm r.target),
        ("kind", .ofOption (fun k => .text k.name) r.kind), ("center", pointForm p)] := by
  obtain ⟨id, hr⟩ := Table.mem_values_iff.1 hr
  obtain rfl := h.relation_key hr
  obtain ⟨p, hp⟩ := h.exists_pointOf Claim.center (contains_relation_iff.2 ⟨r, hr⟩)
  refine ⟨p, hp, ?_⟩
  rw [relationForm, center, hp]
  rfl

end

end Graph

/-! ### In exact arithmetic -/

variable {K : Type} [Field K] [LinearOrder K] [IsStrictOrderedRing K] [FloorSemiring K] [Angles K]

/-- A point lies in a rectangle or on its border. -/
def Rect.Covers (r : Rect K) (p : Point K) : Prop :=
  (r.x ≤ p.x ∧ p.x ≤ r.right) ∧ r.y ≤ p.y ∧ p.y ≤ r.bottom

theorem Point.midpoint_eq (p q : Point K) : p.midpoint q = ⟨(p.x + q.x) / 2, (p.y + q.y) / 2⟩ := by
  have hhalf : ∀ a b : K, a + (b - a) / 2.0 = (a + b) / 2 := fun a b => by
    rw [exact_two]
    ring
  rw [← hhalf, ← hhalf]
  rfl

theorem Rect.Covers.midpoint {r : Rect K} {p q : Point K} (hp : r.Covers p) (hq : r.Covers q) :
    r.Covers (p.midpoint q) := by
  obtain ⟨⟨hleft, hright⟩, htop, hbottom⟩ := hp
  obtain ⟨⟨hleft', hright'⟩, htop', hbottom'⟩ := hq
  rw [Point.midpoint_eq]
  refine ⟨⟨?_, ?_⟩, ?_, ?_⟩ <;> linarith

theorem Rect.covers_center {r : Rect K} (hwidth : 0 ≤ r.width) (hheight : 0 ≤ r.height) : r.Covers r.center := by
  have hinner : ∀ start length : K, 0 ≤ length →
      start ≤ start + 0.5 * length ∧ start + 0.5 * length ≤ start + length := by
    intro start length hlength
    have hhalf : (0.5 : K) = 1 / 2 := by norm_num
    rw [hhalf]
    constructor <;> linarith
  exact ⟨hinner r.x r.width hwidth, hinner r.y r.height hheight⟩

omit [IsStrictOrderedRing K] in
theorem Rect.IsHull.covers {hull r : Rect K} {rects : Set (Rect K)} (h : hull.IsHull rects) (hr : r ∈ rects)
    {p : Point K} (hp : r.Covers p) : hull.Covers p := by
  obtain ⟨⟨hleft, hright⟩, htop, hbottom⟩ := hp
  exact ⟨⟨(h.left.2 ⟨r, hr, rfl⟩).trans hleft, hright.trans (h.right.2 ⟨r, hr, rfl⟩)⟩,
    (h.top.2 ⟨r, hr, rfl⟩).trans htop, hbottom.trans (h.bottom.2 ⟨r, hr, rfl⟩)⟩

namespace Graph

theorem WellFormed.bounds_covers {g : Graph K} (h : g.WellFormed)
    (hsizes : ∀ id claim, g.claim? id = some claim → 0 ≤ claim.rect.width ∧ 0 ≤ claim.rect.height)
    {b : Rect K} (hb : g.bounds = some b) {entity : Entity} {p : Point K} (hp : g.center entity = some p) :
    b.Covers p := by
  refine h.pointOf_induction (P := b.Covers) ?_ (fun p q => Rect.Covers.midpoint) hp
  intro id claim hclaim
  obtain ⟨hwidth, hheight⟩ := hsizes id claim hclaim
  exact (isHull_bounds hb).covers ⟨id, claim, hclaim, rfl⟩ (Rect.covers_center hwidth hheight)

/-- The points of a relation's ends, and its own half way between them. -/
theorem WellFormed.exists_center {g : Graph K} (h : g.WellFormed) {id : RelationId} {r : Relation}
    (hr : g.relation? id = some r) : ∃ source target, g.center (.claim r.source) = some source ∧
      g.center r.target = some target ∧
      g.center (.relation id) = some ⟨(source.x + target.x) / 2, (source.y + target.y) / 2⟩ := by
  obtain ⟨source, hsource⟩ := h.exists_pointOf Claim.center (h.source_live hr)
  obtain ⟨target, htarget⟩ := h.exists_pointOf Claim.center (h.target_live hr)
  refine ⟨source, target, hsource, htarget, ?_⟩
  rw [center, (h.solvesPoints Claim.center).relation, hr, Option.bind_some, hsource, Option.bind_some, htarget,
    Option.map_some, Point.midpoint_eq]

/-- Asking for the point of an entity comes to an end, with the one answer that there is, and just the live
entities have a point, a center and a box: no line is left out of a frame, and no center of a list. In exact
arithmetic, with no claim of negative size, the center of a relation is half way between those of its source and
its target, and within the bounds. -/
theorem live_iff_center :
    (∀ {α : Type} [Scalar α] [WrittenScalar α] {g : Graph α}, g.Reachable →
      (WellFounded fun next entity => g.Asks entity next) ∧
      (∀ ofClaim points, g.SolvesPoints ofClaim points ↔ points = g.pointOf ofClaim) ∧
      (∀ entity, (g.position entity).isSome = g.contains entity ∧ (g.center entity).isSome = g.contains entity ∧
        (g.boxOf entity).isSome = g.contains entity) ∧
      (∀ s : Scene α, s.graph = g → ∀ r ∈ g.relations.values, (s.ends? r).isSome) ∧
      ∀ r ∈ g.relations.values, ∃ p, g.center (.relation r.id) = some p ∧ g.relationForm r =
        .object [("id", .nat r.id.index), ("source", .nat r.source.index), ("target", entityForm r.target),
          ("kind", .ofOption (fun k => .text k.name) r.kind), ("center", pointForm p)]) ∧
    ∀ {K : Type} [Field K] [LinearOrder K] [IsStrictOrderedRing K] [FloorSemiring K] [Angles K] {g : Graph K},
      g.Reachable →
      (∀ id claim, g.claim? id = some claim → 0 ≤ claim.rect.width ∧ 0 ≤ claim.rect.height) →
      ∀ id r, g.relation? id = some r → ∃ source target p b, g.center (.claim r.source) = some source ∧
        g.center r.target = some target ∧ g.center (.relation id) = some p ∧
        p = ⟨(source.x + target.x) / 2, (source.y + target.y) / 2⟩ ∧ g.bounds = some b ∧ b.Covers p := by
  constructor
  · intro α _ _ g hg
    have h := hg.wellFormed
    refine ⟨h.wellFounded_asks, fun ofClaim points => h.solvesPoints_iff, fun entity => ?_, ?_, ?_⟩
    · exact ⟨h.isSome_pointOf _ entity, h.isSome_pointOf _ entity, h.isSome_boxOf entity⟩
    · rintro s rfl r hr
      exact h.isSome_ends? hr
    · exact fun r hr => h.relationForm_eq hr
  · intro K _ _ _ _ _ g hg hsizes id r hr
    have h := hg.wellFormed
    obtain ⟨source, target, hsource, htarget, hcenter⟩ := h.exists_center hr
    cases hbounds : g.bounds with
    | none =>
        obtain ⟨claim, hclaim⟩ := contains_claim_iff.1 (h.source_live hr)
        cases (claim?_of_bounds hbounds r.source).symm.trans hclaim
    | some b =>
        exact ⟨source, target, _, b, hsource, htarget, hcenter, rfl, rfl, h.bounds_covers hsizes hbounds hcenter⟩

/-- A relation that points at a relation, and claims as wide as their texts. -/
def chained {α : Type} [Scalar α] : Graph α :=
  empty.after [.addClaim "a" .plain, .addClaim "bb" .plain, .addRelation [⟨0⟩] (.claim ⟨1⟩) none .plain,
    .addRelation [⟨1⟩] (.relation ⟨0⟩) none .plain,
    .measure fun lines => ⟨Scalar.count (lines.map String.length).sum, 30.0⟩]

theorem live_iff_center_of_chained :
    ((chained : Graph Float32).center (.relation ⟨1⟩)).isSome ∧
      ∃ p b, (chained : Graph ℚ).center (.relation ⟨1⟩) = some p ∧ (chained : Graph ℚ).bounds = some b ∧
        b.Covers p := by
  have hlive : (chained : Graph Float32).contains (.relation ⟨1⟩) = true := by decide +kernel
  obtain ⟨-, -, hsome, -, -⟩ := live_iff_center.1 (α := Float32) (g := chained) ⟨_, rfl⟩
  have hvalues : ∀ claim ∈ (chained : Graph ℚ).claims.values, 0 ≤ claim.rect.width ∧ 0 ≤ claim.rect.height := by
    decide +kernel
  have hsizes : ∀ id claim, (chained : Graph ℚ).claim? id = some claim →
      0 ≤ claim.rect.width ∧ 0 ≤ claim.rect.height :=
    fun id claim hclaim => hvalues claim (Table.mem_values_iff.2 ⟨id, hclaim⟩)
  obtain ⟨r, hr⟩ := Option.isSome_iff_exists.1
    (show ((chained : Graph ℚ).relation? ⟨1⟩).isSome by decide +kernel)
  obtain ⟨source, target, p, b, -, -, hcenter, -, hbounds, hcovers⟩ :=
    live_iff_center.2 (K := ℚ) (g := chained) ⟨_, rfl⟩ hsizes ⟨1⟩ r hr
  exact ⟨(hsome (.relation ⟨1⟩)).2.1.trans hlive, p, b, hcenter, hbounds, hcovers⟩

end Graph

end ArgumentDiagram
