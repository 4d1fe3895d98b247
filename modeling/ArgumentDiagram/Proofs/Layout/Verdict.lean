import ArgumentDiagram.Canvas.Basic
import ArgumentDiagram.Proofs.Graph.Reachable
import ArgumentDiagram.Proofs.Layout.Recursion

/-!
When a graph has a layout. A call is refused because of some call that it leads to, and the path of that one
is a chain of claims that feed each other down to a root. Main statement: the layout is built exactly if the
claims above the roots are measured and none of them is on a cycle, and whatever refuses it names a claim
above a root that is on a cycle or not measured.
-/

open Relation

namespace ArgumentDiagram

variable {α : Type}

/-- A live claim with a size. -/
def Graph.Measured (g : Graph α) (id : ClaimId) : Prop :=
  ∃ claim, g.claim? id = some claim ∧ claim.isMeasured

/-- The anchor and the offset of a claim. -/
def Claim.place (c : Claim α) : Point α × Point α := (c.placement.anchor, c.placement.offset)

/-- Two states of a canvas that show the same claims at the same places. -/
structure Canvas.Unmoved (c c' : Canvas α) : Prop where
  places : ∀ id, (c'.graph.claim? id).map Claim.place = (c.graph.claim? id).map Claim.place
  relations : c'.graph.relations = c.graph.relations
  selected : c'.selected = c.selected
  outline : c'.outline = c.outline

namespace Layout

variable {g : Graph α} {settings : LayoutSettings α}

theorem measured_iff {id : ClaimId} :
    g.Measured id ↔ ∃ claim size, g.claim? id = some claim ∧ claim.placement.size? = some size := by
  simp [Graph.Measured, Claim.isMeasured, Placement.isMeasured, Option.isSome_iff_exists]

/-- The column that a call builds. -/
def Call.column (g : Graph α) (settings : LayoutSettings α) : Call → Except GraphError (LayoutBox α)
  | .claim path id => claimBox g settings path id
  | .relation path id => relationBox g settings path id

/-- What is wrong with a call by itself. -/
inductive Refuses (g : Graph α) : Call → GraphError → Prop
  | cycle {path : List ClaimId} {id : ClaimId} : id ∈ path → Refuses g (.claim path id) (.cycle id)
  | unknown {path : List ClaimId} {id : ClaimId} :
      ¬g.contains (.claim id) → Refuses g (.claim path id) (.invalidSource .unknown id)
  | unmeasured {path : List ClaimId} {id : ClaimId} :
      g.contains (.claim id) → ¬g.Measured id → Refuses g (.claim path id) (.unmeasured id)
  | missing {path : List ClaimId} {id : RelationId} :
      ¬g.contains (.relation id) → Refuses g (.relation path id) (.missingRelation id)

/-- The claims on a path: the first one feeds the second and so on, and the last one is a root. -/
def LeadsToRoot (g : Graph α) : List ClaimId → ClaimId → Prop
  | [], c => g.IsRoot c
  | d :: path, c => g.Feeds c d ∧ LeadsToRoot g path d

/-- A call whose path leads from its claim, or from the end of its relation's chain, down to a root. -/
def OnChain (g : Graph α) : Call → Prop
  | .claim path id => LeadsToRoot g path id
  | .relation path id => ∃ d rest, path = d :: rest ∧ g.EndsAt (.relation id) d ∧ LeadsToRoot g rest d

theorem LeadsToRoot.reachesRoot {path : List ClaimId} {c : ClaimId} (h : LeadsToRoot g path c) :
    g.ReachesRoot c := by
  induction path generalizing c with
  | nil => exact ⟨c, h, .refl⟩
  | cons d path ih => exact (ih h.2).head h.1

theorem LeadsToRoot.feeds {path : List ClaimId} {c d : ClaimId} (h : LeadsToRoot g path c)
    (hmem : d ∈ path) : TransGen g.Feeds c d := by
  induction path generalizing c with
  | nil => simp at hmem
  | cons first path ih =>
      rcases List.mem_cons.1 hmem with rfl | hmem
      · exact .single h.1
      · exact (ih h.2 hmem).head h.1

/-- The path stays a chain of feeding claims with each call. -/
theorem OnChain.calls (hg : g.WellFormed) {call next : Call} (h : OnChain g call)
    (hcalls : Calls g call next) : OnChain g next := by
  cases hcalls with
  | @incoming_claim path id r _ _ hmem =>
      obtain ⟨relation, hr, htarget⟩ := (Graph.mem_incoming_iff hg).1 hmem
      have hends : g.EndsAt (.relation r) id := by
        rw [Graph.endsAt_relation_iff hr, htarget]
        exact Graph.endsAt_claim_iff.2 rfl
      exact ⟨id, path, rfl, hends, h⟩
  | @incoming_relation path id r hmem =>
      obtain ⟨relation, hr, htarget⟩ := (Graph.mem_incoming_iff hg).1 hmem
      obtain ⟨d, rest, hpath, hends, hrest⟩ := h
      have hends' : g.EndsAt (.relation r) d := by
        rw [Graph.endsAt_relation_iff hr, htarget]
        exact hends
      exact ⟨d, rest, hpath, hends', hrest⟩
  | @source path id r hr =>
      obtain ⟨d, rest, rfl, hends, hrest⟩ := h
      exact ⟨⟨id, r, hr, rfl, hends⟩, hrest⟩

theorem OnChain.calls_star (hg : g.WellFormed) {call next : Call} (h : OnChain g call)
    (hcalls : ReflTransGen (Calls g) call next) : OnChain g next := by
  induction hcalls with
  | refl => exact h
  | tail _ hstep ih => exact ih.calls hg hstep

/-- A call that is refused leads to one that is refused by itself. -/
theorem exists_refuses (hg : g.WellFormed) {call : Call} {e : GraphError}
    (herror : call.column g settings = .error e) :
    ∃ last, ReflTransGen (Calls g) call last ∧ Refuses g last e := by
  induction call using (wellFounded_calls hg).induction with
  | _ call ih =>
      have hnext : ∀ next, Calls g call next → next.column g settings = .error e →
          ∃ last, ReflTransGen (Calls g) call last ∧ Refuses g last e := by
        intro next hcalls hrefused
        obtain ⟨last, hlast, hrefuses⟩ := ih next hcalls hrefused
        exact ⟨last, hlast.head hcalls, hrefuses⟩
      cases call with
      | claim path id =>
          rcases claimBox_eq_error herror with
            ⟨hcycle, rfl⟩ | ⟨hnone, rfl⟩ | ⟨claim, hclaim, hsize, rfl⟩ | ⟨hfresh, hlive, r, hmem, hrefused⟩
          · exact ⟨_, .refl, .cycle hcycle⟩
          · exact ⟨_, .refl, .unknown (by simp [Graph.contains_claim_iff, hnone])⟩
          · have hlive := Graph.contains_claim_iff.2 ⟨claim, hclaim⟩
            exact ⟨_, .refl, .unmeasured hlive (by simp [measured_iff, hclaim, hsize])⟩
          · exact hnext _ (.incoming_claim hfresh hlive hmem) hrefused
      | relation path id =>
          rcases relationBox_eq_error hg herror with
            ⟨hnone, rfl⟩ | ⟨other, hmem, hrefused⟩ | ⟨r, hr, hrefused⟩
          · exact ⟨_, .refl, .missing (by simp [Graph.contains_relation_iff, hnone])⟩
          · exact hnext _ (.incoming_relation hmem) hrefused
          · exact hnext _ (.source hr) hrefused

/-- Whatever refuses a layout names a claim above a root that is on a cycle or has no size. -/
theorem refused (hg : g.WellFormed) {e : GraphError} (herror : build g settings = .error e) :
    (∃ c, e = .cycle c ∧ g.ReachesRoot c ∧ g.OnCycle c) ∨
    ∃ c, e = .unmeasured c ∧ g.ReachesRoot c ∧ ¬g.Measured c := by
  rcases Outcome.bind_eq_error.1 herror with hcolumns | ⟨_, -, hpure⟩
  · obtain ⟨root, hmem, hroot⟩ := Outcome.exists_of_mapM_eq_error hcolumns
    have hcolumn : (Call.claim [] root).column g settings = .error e := hroot
    obtain ⟨last, hcalls, hrefuses⟩ := exists_refuses hg hcolumn
    have hstart : OnChain g (.claim [] root) := Graph.mem_rootClaims_iff.1 hmem
    have hchain := hstart.calls_star hg hcalls
    cases hrefuses with
    | cycle hmem => exact .inl ⟨_, rfl, hchain.reachesRoot, hchain.feeds hmem⟩
    | unknown hdead => exact absurd (hg.live_of_reachesRoot hchain.reachesRoot) hdead
    | unmeasured _ hsize => exact .inr ⟨_, rfl, hchain.reachesRoot, hsize⟩
    | missing hdead =>
        obtain ⟨d, rest, -, hends, -⟩ := hchain
        exact absurd (Graph.live_of_endsAt hends) hdead
  · cases hpure

/-! ### Layouts that are built -/

/-- Every column that a built one calls for is built. -/
theorem built_of_calls (hg : g.WellFormed) {call next : Call} {box : LayoutBox α}
    (hbuilt : call.column g settings = .ok box) (hcalls : Calls g call next) :
    ∃ box, next.column g settings = .ok box := by
  cases hcalls with
  | incoming_claim _ _ hmem =>
      obtain ⟨-, _, _, incoming, -, -, hincoming, -⟩ := claimBox_eq_ok.1 hbuilt
      obtain ⟨column, -, hcolumn⟩ := Outcome.exists_of_forall₂ hincoming hmem
      exact ⟨column, hcolumn⟩
  | incoming_relation hmem =>
      obtain ⟨_, incoming, _, -, hincoming, -, -⟩ := (relationBox_eq_ok hg).1 hbuilt
      obtain ⟨column, -, hcolumn⟩ := Outcome.exists_of_forall₂ hincoming hmem
      exact ⟨column, hcolumn⟩
  | source hr =>
      obtain ⟨_, _, source, hr', -, hsource, -⟩ := (relationBox_eq_ok hg).1 hbuilt
      obtain rfl := Option.some.inj (hr.symm.trans hr')
      exact ⟨source, hsource⟩

theorem built_of_calls_star (hg : g.WellFormed) {call next : Call} {box : LayoutBox α}
    (hbuilt : call.column g settings = .ok box) (hcalls : ReflTransGen (Calls g) call next) :
    ∃ box, next.column g settings = .ok box := by
  induction hcalls with
  | refl => exact ⟨box, hbuilt⟩
  | tail _ hstep ih =>
      obtain ⟨_, hmiddle⟩ := ih
      exact built_of_calls hg hmiddle hstep

/-- A claim calls for all relations whose chains of targets end at it. -/
theorem calls_of_endsAt (hg : g.WellFormed) {path : List ClaimId} {d : ClaimId} (hfresh : d ∉ path)
    (hlive : g.contains (.claim d)) {id : RelationId} (hends : g.EndsAt (.relation id) d) :
    ReflTransGen (Calls g) (.claim path d) (.relation (d :: path) id) := by
  generalize hentity : Entity.relation id = entity at hends
  induction hends using ReflTransGen.head_induction_on generalizing id with
  | refl => cases hentity
  | head hstep hrest ih =>
      subst hentity
      obtain ⟨r, hr, rfl⟩ := Graph.pointsAt_relation_iff.1 hstep
      have hmem := (Graph.mem_incoming_iff hg).2 ⟨r, hr, rfl⟩
      cases htarget : r.target with
      | claim c =>
          rw [htarget] at hrest hmem
          obtain rfl := Graph.endsAt_claim_iff.1 hrest
          exact .single (.incoming_claim hfresh hlive hmem)
      | relation other =>
          rw [htarget] at hmem
          exact (ih htarget.symm).tail (.incoming_relation hmem)

theorem built_of_feeds (hg : g.WellFormed) {path : List ClaimId} {c d : ClaimId} {box : LayoutBox α}
    (hbuilt : claimBox g settings path d = .ok box) (hfeeds : g.Feeds c d) :
    ∃ box, claimBox g settings (d :: path) c = .ok box := by
  obtain ⟨hfresh, claim, _, _, hclaim, -⟩ := claimBox_eq_ok.1 hbuilt
  obtain ⟨id, r, hr, rfl, hends⟩ := hfeeds
  have hlive := Graph.contains_claim_iff.2 ⟨claim, hclaim⟩
  have hcalls := (calls_of_endsAt hg hfresh hlive hends).tail (.source hr)
  have hcolumn : (Call.claim path d).column g settings = .ok box := hbuilt
  exact built_of_calls_star hg hcolumn hcalls

theorem built_of_feeds_star (hg : g.WellFormed) {path : List ClaimId} {c d : ClaimId}
    {box : LayoutBox α} (hbuilt : claimBox g settings path d = .ok box)
    (hfeeds : ReflTransGen g.Feeds c d) :
    ∃ longer box, path ⊆ longer ∧ claimBox g settings longer c = .ok box := by
  induction hfeeds using ReflTransGen.head_induction_on with
  | refl => exact ⟨path, box, List.Subset.refl path, hbuilt⟩
  | @head c next hstep _ ih =>
      obtain ⟨longer, _, hsub, hnext⟩ := ih
      obtain ⟨column, hcolumn⟩ := built_of_feeds hg hnext hstep
      exact ⟨next :: longer, column, List.subset_cons_of_subset next hsub, hcolumn⟩

/-- Going around a cycle comes back to a claim that is on the path. -/
theorem not_onCycle_of_built (hg : g.WellFormed) {path : List ClaimId} {c : ClaimId}
    {box : LayoutBox α} (hbuilt : claimBox g settings path c = .ok box) : ¬g.OnCycle c := by
  intro hcycle
  obtain ⟨b, hround, hlast⟩ := TransGen.tail'_iff.1 hcycle
  obtain ⟨_, hb⟩ := built_of_feeds hg hbuilt hlast
  obtain ⟨longer, _, hsub, hagain⟩ := built_of_feeds_star hg hb hround
  exact (claimBox_eq_ok.1 hagain).1 (hsub List.mem_cons_self)

theorem build_eq_ok {l : Layout α} :
    build g settings = .ok l ↔ ∃ columns,
      List.Forall₂ (fun root column => claimBox g settings [] root = .ok column) g.rootClaims columns ∧
      ⟨row settings columns, settings.origin⟩ = l := by
  simp [build, Outcome.bind_eq_ok, Outcome.mapM_eq_ok, pure, Except.pure]

theorem exists_claimBox_of_build (hg : g.WellFormed) {l : Layout α} (hbuild : build g settings = .ok l)
    {c : ClaimId} (hreach : g.ReachesRoot c) : ∃ path box, claimBox g settings path c = .ok box := by
  obtain ⟨root, hroot, hfeeds⟩ := hreach
  obtain ⟨columns, hcolumns, -⟩ := build_eq_ok.1 hbuild
  obtain ⟨_, -, hcolumn⟩ := Outcome.exists_of_forall₂ hcolumns (Graph.mem_rootClaims_iff.2 hroot)
  obtain ⟨path, box, -, hbox⟩ := built_of_feeds_star hg hcolumn hfeeds
  exact ⟨path, box, hbox⟩

theorem exists_build_iff (hg : g.WellFormed) :
    (∃ l, build g settings = .ok l) ↔ ∀ c, g.ReachesRoot c → g.Measured c ∧ ¬g.OnCycle c := by
  constructor
  · rintro ⟨l, hbuild⟩ c hreach
    obtain ⟨path, box, hbox⟩ := exists_claimBox_of_build hg hbuild hreach
    obtain ⟨-, claim, size, _, hclaim, hsize, -⟩ := claimBox_eq_ok.1 hbox
    exact ⟨measured_iff.2 ⟨claim, size, hclaim, hsize⟩, not_onCycle_of_built hg hbox⟩
  · intro hall
    cases hbuild : build g settings with
    | ok l => exact ⟨l, rfl⟩
    | error e =>
        rcases refused hg hbuild with ⟨c, -, hreach, hcycle⟩ | ⟨c, -, hreach, hsize⟩
        · exact absurd hcycle (hall c hreach).2
        · exact absurd (hall c hreach).1 hsize

theorem measured_measureClaims (g : Graph α) (sizeOf : List String → Size α) {id : ClaimId}
    (hlive : (g.measureClaims sizeOf).2.contains (.claim id)) :
    (g.measureClaims sizeOf).2.Measured id := by
  obtain ⟨claim, hclaim⟩ := Graph.contains_claim_iff.1 hlive
  refine ⟨claim, hclaim, ?_⟩
  rw [Graph.measureClaims, Graph.claim?_updateWhere, Option.map_eq_some_iff] at hclaim
  obtain ⟨c, -, rfl⟩ := hclaim
  cases hmeasured : c.isMeasured with
  | true => simp [hmeasured]
  | false => simp [Claim.isMeasured, Claim.mapPlacement, Placement.isMeasured, Placement.measure,
      Placement.size?]

theorem size?_measureClaims_forgetSizes (g : Graph α) (sizeOf : List String → Size α) {id : ClaimId}
    {claim : Claim α} (hclaim : (g.forgetSizes.2.measureClaims sizeOf).2.claim? id = some claim) :
    claim.placement.size? = some (sizeOf claim.text) := by
  rw [Graph.measureClaims, Graph.claim?_updateWhere, Option.map_eq_some_iff] at hclaim
  obtain ⟨c, hc, rfl⟩ := hclaim
  rw [Graph.forgetSizes, Graph.claim?_updateWhere, Option.map_eq_some_iff] at hc
  obtain ⟨before, -, hbefore⟩ := hc
  have hforgotten : c.isMeasured = false := by
    subst hbefore
    cases hmeasured : before.isMeasured
    · exact hmeasured
    · rfl
  rw [hforgotten]
  rfl

variable [Scalar α]

theorem unmoved_measureClaims (canvas : Canvas α) : canvas.Unmoved canvas.measureClaims.2 where
  places id := by
    simp only [Canvas.measureClaims, Graph.measureClaims, Graph.claim?_updateWhere, Option.map_map]
    congr 1
    funext claim
    by_cases h : claim.isMeasured <;>
      simp [h, Claim.place, Claim.mapPlacement, Placement.measure]
  relations := (Graph.sameArgument_measureClaims ..).relations
  selected := rfl
  outline := rfl

/-- On a canvas all claims are measured before they are laid out, so only a cycle is left to refuse that. -/
theorem applyLayout_refused {canvas : Canvas α} (hg : canvas.graph.WellFormed) {e : GraphError}
    (herror : canvas.applyLayout.1 = .error e) :
    (∃ c, e = .cycle c) ∧ canvas.Unmoved canvas.applyLayout.2 := by
  have hwf : canvas.measureClaims.2.graph.WellFormed :=
    (Graph.sameArgument_measureClaims ..).wellFormed hg
  cases hbuild : build canvas.measureClaims.2.graph canvas.measureClaims.2.settings with
  | ok l =>
      rw [Canvas.applyLayout, Canvas.layout, hbuild] at herror
      cases herror
  | error e' =>
      rw [Canvas.applyLayout, Canvas.layout, hbuild] at herror ⊢
      obtain rfl := Except.error.inj herror
      refine ⟨?_, unmoved_measureClaims canvas⟩
      rcases refused hwf hbuild with ⟨c, rfl, -⟩ | ⟨c, -, hreach, hsize⟩
      · exact ⟨c, rfl⟩
      · exact absurd (measured_measureClaims _ _ (hwf.live_of_reachesRoot hreach)) hsize

/-- Building the layout of a graph ends, and no relation that points at a relation is left out. It goes
through exactly if all claims above the roots are measured and none of them is on a cycle, and is refused
with such a claim only. Claims on a canvas are measured first; if they still have no layout, the reason is a
cycle, and they stay where they are. -/
theorem build_verdict (h : g.Reachable) (settings : LayoutSettings α) :
    WellFounded (fun next call => Calls g call next) ∧
    (∀ id, incomingTo g id = g.incoming (.relation id)) ∧
    ((∃ l, build g settings = .ok l) ↔ ∀ c, g.ReachesRoot c → g.Measured c ∧ ¬g.OnCycle c) ∧
    (∀ e, build g settings = .error e →
      (∃ c, e = .cycle c ∧ g.ReachesRoot c ∧ g.OnCycle c) ∨
      ∃ c, e = .unmeasured c ∧ g.ReachesRoot c ∧ ¬g.Measured c) ∧
    ∀ canvas : Canvas α, canvas.graph = g → ∀ e, canvas.applyLayout.1 = .error e →
      (∃ c, e = .cycle c) ∧ canvas.Unmoved canvas.applyLayout.2 := by
  have hg := h.wellFormed
  refine ⟨wellFounded_calls hg, incomingTo_eq hg, exists_build_iff hg, fun e => refused hg, ?_⟩
  rintro canvas rfl e herror
  exact applyLayout_refused hg herror

/-- Here a claim supports the root, and with it a relation between two other claims turned on itself. -/
theorem build_verdict_of_feedback : ∃ g : Graph Float32, g.Reachable ∧
    ∃ c, build g .standard = .error (.cycle c) := by
  let support : Relation := ⟨⟨0⟩, ⟨1⟩, .claim ⟨0⟩, none, .plain⟩
  let middle : Relation := ⟨⟨1⟩, ⟨2⟩, .claim ⟨1⟩, none, .plain⟩
  let back : Relation := ⟨⟨2⟩, ⟨1⟩, .relation ⟨1⟩, none, .plain⟩
  obtain ⟨start, hstart, hsupport, hmiddle, hback, hroot⟩ : ∃ start : Graph Float32,
      start.Reachable ∧ start.relation? ⟨0⟩ = some support ∧ start.relation? ⟨1⟩ = some middle ∧
      start.relation? ⟨2⟩ = some back ∧ ⟨0⟩ ∈ start.rootClaims :=
    ⟨Graph.empty.after [.addClaim "root" .plain, .addClaim "claim" .plain,
      .addRelation [⟨1⟩] (.claim ⟨0⟩) none .plain, .addClaim "feedback" .plain,
      .addRelation [⟨2⟩] (.claim ⟨1⟩) none .plain, .addRelation [⟨1⟩] (.relation ⟨1⟩) none .plain],
      ⟨_, rfl⟩, rfl, rfl, rfl, by decide +kernel⟩
  have hg := hstart.perform (.measure fun _ => ⟨1.0, 1.0⟩)
  have hsame := Graph.sameArgument_measureClaims start fun _ => ⟨1.0, 1.0⟩
  let g := (start.measureClaims fun _ => ⟨1.0, 1.0⟩).2
  have hpoints : ∀ {id : RelationId} {r : Relation}, start.relation? id = some r →
      g.PointsAt (.relation id) r.target := fun hr => .of_target ((hsame.relation? _).trans hr) rfl
  have hfeeds : g.Feeds ⟨1⟩ ⟨0⟩ :=
    ⟨⟨0⟩, support, (hsame.relation? _).trans hsupport, rfl, .single (hpoints hsupport)⟩
  have hcycle : g.Feeds ⟨1⟩ ⟨1⟩ :=
    ⟨⟨2⟩, back, (hsame.relation? _).trans hback, rfl, .head (hpoints hback) (.single (hpoints hmiddle))⟩
  have hreach : g.ReachesRoot ⟨1⟩ := by
    obtain ⟨hlive, hsource⟩ := Graph.mem_rootClaims_iff.1 hroot
    refine ⟨⟨0⟩, ⟨(hsame.contains _).trans hlive, fun id r hr => ?_⟩, .single hfeeds⟩
    exact hsource id r ((hsame.relation? _).symm.trans hr)
  obtain ⟨-, -, hbuilt, hrefused, -⟩ := build_verdict hg .standard
  refine ⟨g, hg, ?_⟩
  cases hbuild : build g .standard with
  | ok l => exact absurd (.single hcycle) (hbuilt.1 ⟨l, hbuild⟩ ⟨1⟩ hreach).2
  | error e =>
      rcases hrefused e hbuild with ⟨c, rfl, -⟩ | ⟨c, -, hreach, hsize⟩
      · exact ⟨c, rfl⟩
      · exact absurd (measured_measureClaims _ _ (hg.wellFormed.live_of_reachesRoot hreach)) hsize

end Layout

end ArgumentDiagram
