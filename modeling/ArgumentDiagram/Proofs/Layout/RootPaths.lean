import ArgumentDiagram.Proofs.Layout.Leaves
import ArgumentDiagram.Proofs.Layout.Placing
import ArgumentDiagram.Proofs.Layout.Verdict

/-!
Which claims a layout places, and how often. Main statement: a layout holds a claim once for each path of
relations from it to a root, and applying it moves the anchors of these claims and changes nothing else.
-/

namespace ArgumentDiagram

variable {α : Type} {g : Graph α}

/-- A path of relations from a claim to some root. It is empty if the claim is a root. -/
def Graph.IsRootPath (g : Graph α) (c : ClaimId) (path : List RelationId) : Prop :=
  ∃ d, g.IsRoot d ∧ g.IsPath c path d

theorem Graph.exists_isRootPath_iff {c : ClaimId} : (∃ path, g.IsRootPath c path) ↔ g.ReachesRoot c := by
  constructor
  · rintro ⟨path, d, hroot, hpath⟩
    exact ⟨d, hroot, Graph.exists_isPath_iff.1 ⟨path, hpath⟩⟩
  · rintro ⟨d, hroot, hfeeds⟩
    obtain ⟨path, hpath⟩ := Graph.exists_isPath_iff.2 hfeeds
    exact ⟨path, d, hroot, hpath⟩

namespace Layout

variable {settings : LayoutSettings α} {l : Layout α}

theorem traces_root (h : g.WellFormed) (hbuild : build g settings = .ok l) :
    Traces g.IsRootPath l.root.leaves := by
  obtain ⟨columns, hcolumns, rfl⟩ := build_eq_ok.1 hbuild
  have htraces := hcolumns.imp fun root column => (traces_columns h).1 [] root column
  rw [row, LayoutBox.leaves_container]
  refine (traces_flatMap htraces (Graph.nodup_rootClaims g) ?_).of_iff fun c path => ?_
  · intro root _ root' _ c path hpath hpath'
    exact Graph.isPath_unique hpath hpath'
  · simp only [Graph.mem_rootClaims_iff, Graph.IsRootPath]

variable [Scalar α]

theorem claim?_apply_of_notMem {id : ClaimId} (hid : id ∉ l.root.leaves) (target : Graph α) :
    (l.apply target).claim? id = target.claim? id := by
  have hnone : l.outline.lastCorner? id = none := by
    rw [Outline.lastCorner?_eq_none_iff, claims_of_outline]
    exact hid
  rw [apply, claim?_moveClaims, hnone, Option.map_id']

theorem claim?_apply_of_mem {id : ClaimId} (hid : id ∈ l.root.leaves) (target : Graph α) :
    ∃ anchor, (l.apply target).claim? id =
      (target.claim? id).map fun c => { c with placement := { c.placement with anchor := anchor } } := by
  cases hcorner : l.outline.lastCorner? id with
  | none =>
      rw [Outline.lastCorner?_eq_none_iff, claims_of_outline] at hcorner
      exact absurd hid hcorner
  | some corner =>
      refine ⟨corner, ?_⟩
      rw [apply, claim?_moveClaims, hcorner]
      rfl

/-- A layout holds a claim as often as there are paths of relations from it to a root. So it places the
claims above the roots, which are all claims if there are no cycles. Applied to any graph, it changes only
the anchors of the claims that it places. -/
theorem count_leaves_eq_paths (h : g.Reachable) (hbuild : build g settings = .ok l) :
    (∀ c, { path | g.IsRootPath c path }.encard = l.root.leaves.count c) ∧
    (∀ c, c ∈ l.root.leaves ↔ g.ReachesRoot c) ∧
    ((∀ c, ¬g.OnCycle c) → ∀ c, g.contains (.claim c) → c ∈ l.root.leaves) ∧
    ∀ target : Graph α,
      (l.apply target).relations = target.relations ∧
      (l.apply target).nextClaim = target.nextClaim ∧
      (l.apply target).nextRelation = target.nextRelation ∧
      (∀ id, id ∉ l.root.leaves → (l.apply target).claim? id = target.claim? id) ∧
      ∀ id, id ∈ l.root.leaves → ∃ anchor, (l.apply target).claim? id =
        (target.claim? id).map fun c => { c with placement := { c.placement with anchor := anchor } } := by
  have htraces := traces_root h.wellFormed hbuild
  have hplaced : ∀ c, c ∈ l.root.leaves ↔ g.ReachesRoot c := fun c =>
    htraces.mem_iff.trans Graph.exists_isRootPath_iff
  refine ⟨htraces.encard_eq_count, hplaced, ?_, fun target => ?_⟩
  · intro hacyclic c hlive
    exact (hplaced c).2 (h.wellFormed.reachesRoot_of_acyclic hacyclic hlive)
  · have hsame := Graph.sameArgument_moveClaims target l.outline
    exact ⟨hsame.relations, hsame.nextClaim, hsame.nextRelation,
      fun id hid => claim?_apply_of_notMem hid target, fun id hid => claim?_apply_of_mem hid target⟩

/-- A graph that is all about one root has a layout once it is measured. -/
theorem exists_measured_build (settings : LayoutSettings α) (size : Size α) {start : Graph α}
    (hstart : start.Reachable) {root : ClaimId} (hroot : start.IsRoot root)
    (hends : ∀ id r, start.relation? id = some r → start.EndsAt (.relation id) root) :
    ∃ (g : Graph α) (l : Layout α), g.Reachable ∧ build g settings = .ok l ∧ start.SameArgument g ∧
      ∀ id claim, g.claim? id = some claim → claim.placement.size? = some size := by
  let g := (start.forgetSizes.2.measureClaims fun _ => size).2
  have hg : g.Reachable := (hstart.perform .forgetSizes).perform (.measure fun _ => size)
  have hsame : start.SameArgument g := (Graph.sameArgument_forgetSizes start).trans
    (Graph.sameArgument_measureClaims start.forgetSizes.2 fun _ => size)
  have hends' : ∀ id r, g.relation? id = some r → g.EndsAt (.relation id) root :=
    fun id r hr => hsame.endsAt (hends id r ((hsame.relation? id).symm.trans hr))
  obtain ⟨l, hbuild⟩ : ∃ l, build g settings = .ok l := by
    refine (exists_build_iff hg.wellFormed).2 fun c hreach =>
      ⟨?_, Graph.not_onCycle_of_endsAt (hsame.isRoot hroot) hends' c⟩
    exact measured_measureClaims _ _ (hg.wellFormed.live_of_reachesRoot hreach)
  exact ⟨g, l, hg, hbuild, hsame,
    fun _ _ hclaim => size?_measureClaims_forgetSizes start (fun _ => size) hclaim⟩

/-- A claim with two relations to the root, and a claim that is turned on the second of these, all measured. -/
theorem exists_shared_source (settings : LayoutSettings α) (size : Size α) :
    ∃ (g : Graph α) (l : Layout α), g.Reachable ∧ build g settings = .ok l ∧
      (∀ id claim, g.claim? id = some claim → claim.placement.size? = some size) ∧
      g.IsRootPath ⟨1⟩ [⟨0⟩] ∧ g.IsRootPath ⟨1⟩ [⟨1⟩] ∧ g.IsRootPath ⟨2⟩ [⟨2⟩] := by
  let first : Relation := ⟨⟨0⟩, ⟨1⟩, .claim ⟨0⟩, none, .plain⟩
  let second : Relation := ⟨⟨1⟩, ⟨1⟩, .claim ⟨0⟩, none, .plain⟩
  let third : Relation := ⟨⟨2⟩, ⟨2⟩, .relation ⟨1⟩, none, .plain⟩
  obtain ⟨start, hstart, hrelations⟩ : ∃ start : Graph α, start.Reachable ∧
      start.relations.entries = [(⟨0⟩, first), (⟨1⟩, second), (⟨2⟩, third)] :=
    ⟨Graph.empty.after [.addClaim "root" .plain, .addClaim "shared" .plain,
      .addRelation [⟨1⟩] (.claim ⟨0⟩) none .plain, .addRelation [⟨1⟩] (.claim ⟨0⟩) none .plain,
      .addClaim "attack" .plain, .addRelation [⟨2⟩] (.relation ⟨1⟩) none .plain], ⟨_, rfl⟩, rfl⟩
  have hrelation : ∀ {id r}, start.relation? id = some r ↔
      (id, r) ∈ [((⟨0⟩ : RelationId), first), (⟨1⟩, second), (⟨2⟩, third)] := by
    intro id r
    rw [Graph.relation?, Table.get?_eq_some_iff, hrelations]
  have hfirst : start.relation? ⟨0⟩ = some first := hrelation.2 (by simp)
  have hsecond : start.relation? ⟨1⟩ = some second := hrelation.2 (by simp)
  have hthird : start.relation? ⟨2⟩ = some third := hrelation.2 (by simp)
  have hroot : start.IsRoot ⟨0⟩ := by
    refine ⟨hstart.wellFormed.target_live hfirst, fun id r hr => ?_⟩
    have hmem := hrelation.1 hr
    simp only [List.mem_cons, Prod.mk.injEq, List.not_mem_nil, or_false] at hmem
    rcases hmem with ⟨-, rfl⟩ | ⟨-, rfl⟩ | ⟨-, rfl⟩ <;> decide
  have hends : ∀ id r, start.relation? id = some r → start.EndsAt (.relation id) ⟨0⟩ := by
    intro id r hr
    have hmem := hrelation.1 hr
    simp only [List.mem_cons, Prod.mk.injEq, List.not_mem_nil, or_false] at hmem
    rcases hmem with ⟨rfl, rfl⟩ | ⟨rfl, rfl⟩ | ⟨rfl, rfl⟩
    · exact .single (.of_target hfirst rfl)
    · exact .single (.of_target hsecond rfl)
    · exact .head (.of_target hthird rfl) (.single (.of_target hsecond rfl))
  obtain ⟨g, l, hg, hbuild, hsame, hsize⟩ := exists_measured_build settings size hstart hroot hends
  have hpath : ∀ {id r}, start.relation? id = some r → g.IsRootPath r.source [id] := fun {id r} hr =>
    ⟨⟨0⟩, hsame.isRoot hroot, r, ⟨0⟩, (hsame.relation? id).trans hr, rfl, hsame.endsAt (hends id r hr), rfl⟩
  exact ⟨g, l, hg, hbuild, hsize, hpath hfirst, hpath hsecond, hpath hthird⟩

theorem count_leaves_eq_paths_of_shared : ∃ (g : Graph Float32) (l : Layout Float32), g.Reachable ∧
    build g .standard = .ok l ∧ 2 ≤ l.root.leaves.count ⟨1⟩ ∧ ⟨2⟩ ∈ l.root.leaves := by
  have hshared := exists_shared_source (α := Float32) .standard ⟨1.0, 1.0⟩
  obtain ⟨g, l, hg, hbuild, -, hfirst, hsecond, hthird⟩ := hshared
  obtain ⟨hcount, hplaced, -, -⟩ := count_leaves_eq_paths hg hbuild
  have hpaths : { [⟨0⟩], [⟨1⟩] } ⊆ { path | g.IsRootPath ⟨1⟩ path } := by
    rintro path (rfl | rfl)
    · exact hfirst
    · exact hsecond
  have htwo := Set.encard_le_encard hpaths
  rw [Set.encard_pair (by decide), hcount] at htwo
  exact ⟨g, l, hg, hbuild, by exact_mod_cast htwo,
    (hplaced ⟨2⟩).2 (Graph.exists_isRootPath_iff.1 ⟨_, hthird⟩)⟩

end Layout

end ArgumentDiagram
