import ArgumentDiagram.Layout.Build
import ArgumentDiagram.Proofs.Graph.Feeds
import ArgumentDiagram.Proofs.Outcome

/-!
The recursion of the layout. A claim calls for the relations that point at it, a relation for the relations
that point at it and for its source, and only claims get onto the path. Calls end on every well-formed graph:
a claim takes itself from the claims that are off the path, and relations call for younger ones. So the
bounds that the columns of relations keep are never met there, and a column is built exactly if all columns
that it calls for are.
-/

namespace ArgumentDiagram.Layout

variable {α : Type} {g : Graph α} {settings : LayoutSettings α}

/-- A column to build, within the columns of the claims on a path. -/
inductive Call where
  | claim (path : List ClaimId) (id : ClaimId)
  | relation (path : List ClaimId) (id : RelationId)

/-- The columns that a column calls for. Nothing bounds them but the path. -/
inductive Calls (g : Graph α) : Call → Call → Prop
  | incoming_claim {path : List ClaimId} {id : ClaimId} {r : RelationId} :
      id ∉ path → g.contains (.claim id) → r ∈ g.incoming (.claim id) →
      Calls g (.claim path id) (.relation (id :: path) r)
  | incoming_relation {path : List ClaimId} {id r : RelationId} :
      r ∈ g.incoming (.relation id) → Calls g (.relation path id) (.relation path r)
  | source {path : List ClaimId} {id : RelationId} {r : Relation} :
      g.relation? id = some r → Calls g (.relation path id) (.claim path r.source)

/-- What gets smaller with every call: the claims off the path, then the relations that are younger. -/
def Call.rank (g : Graph α) : Call → Nat × Nat
  | .claim path _ => ((offPath g path).length, 0)
  | .relation path id => ((offPath g path).length, 1 + (g.nextRelation - id.index))

theorem index_lt_of_mem_incoming (h : g.WellFormed) {id r : RelationId}
    (hmem : r ∈ g.incoming (.relation id)) : id.index < r.index ∧ r.index < g.nextRelation := by
  obtain ⟨relation, hr, htarget⟩ := (Graph.mem_incoming_iff h).1 hmem
  have hyounger := h.target_older hr htarget
  have hbelow := h.relation_below (Graph.contains_relation_iff.2 ⟨relation, hr⟩)
  exact ⟨hyounger, hbelow⟩

theorem rank_lt_of_calls (h : g.WellFormed) {call next : Call} (hcalls : Calls g call next) :
    Prod.Lex (· < ·) (· < ·) (next.rank g) (call.rank g) := by
  cases hcalls with
  | incoming_claim hfresh hlive _ =>
      have hoff := offPath_cons_lt (by simpa using hfresh) (Graph.mem_claimIds_iff.2 hlive)
      exact Prod.Lex.left _ _ hoff
  | incoming_relation hmem =>
      have hindex := index_lt_of_mem_incoming h hmem
      apply Prod.Lex.right
      omega
  | source _ =>
      apply Prod.Lex.right
      omega

/-- There is no endless chain of calls, cycles or not. -/
theorem wellFounded_calls (h : g.WellFormed) : WellFounded fun next call => Calls g call next := by
  apply Subrelation.wf (r := InvImage (Prod.Lex (· < ·) (· < ·)) (Call.rank g))
  · intro next call hcalls
    exact rank_lt_of_calls h hcalls
  · exact InvImage.wf _ (WellFounded.prod_lex Nat.lt_wfRel.wf Nat.lt_wfRel.wf)

/-! ### Columns that are built, and columns that are refused -/

theorem incomingTo_eq (h : g.WellFormed) (id : RelationId) :
    incomingTo g id = g.incoming (.relation id) := by
  rw [incomingTo, List.filter_eq_self]
  intro r hmem
  simpa using index_lt_of_mem_incoming h hmem

/-- On a well-formed graph the column of a relation takes in all relations that point at it. -/
theorem relationBox_eq (h : g.WellFormed) (settings : LayoutSettings α) (path : List ClaimId)
    {id : RelationId} {r : Relation} (hr : g.relation? id = some r) :
    relationBox g settings path id = (do
      let incoming ← (g.incoming (.relation id)).mapM (relationBox g settings path)
      let source ← claimBox g settings path r.source
      pure (relationColumn settings incoming source)) := by
  rw [relationBox.eq_def]
  simp only [hr]
  rw [List.mapM_subtype (g := relationBox g settings path) fun _ _ => rfl, List.unattach_attach,
    incomingTo_eq h]

theorem claimBox_eq_ok {path : List ClaimId} {id : ClaimId} {box : LayoutBox α} :
    claimBox g settings path id = .ok box ↔ id ∉ path ∧ ∃ claim size incoming,
      g.claim? id = some claim ∧ claim.placement.size? = some size ∧
      List.Forall₂ (fun r column => relationBox g settings (id :: path) r = .ok column)
        (g.incoming (.claim id)) incoming ∧
      claimColumn settings id size incoming = box := by
  rw [claimBox.eq_def]
  split
  next hcycle => simp [List.contains_iff_mem.1 hcycle]
  next hfresh =>
    rw [List.contains_iff_mem] at hfresh
    split
    next hnone => simp [hnone]
    next claim hclaim =>
      split
      next hsize => simp [hclaim, hsize]
      next size hsize =>
        simp [hfresh, hclaim, hsize, Outcome.bind_eq_ok, Outcome.mapM_eq_ok, pure, Except.pure]

theorem relationBox_eq_ok (h : g.WellFormed) {path : List ClaimId} {id : RelationId}
    {box : LayoutBox α} :
    relationBox g settings path id = .ok box ↔ ∃ r incoming source, g.relation? id = some r ∧
      List.Forall₂ (fun other column => relationBox g settings path other = .ok column)
        (g.incoming (.relation id)) incoming ∧
      claimBox g settings path r.source = .ok source ∧
      relationColumn settings incoming source = box := by
  cases hr : g.relation? id with
  | none =>
      rw [relationBox.eq_def]
      simp [hr]
  | some r =>
      rw [relationBox_eq h settings path hr]
      simp [Outcome.bind_eq_ok, Outcome.mapM_eq_ok, pure, Except.pure]

theorem claimBox_eq_error {path : List ClaimId} {id : ClaimId} {e : GraphError}
    (herror : claimBox g settings path id = .error e) :
    (id ∈ path ∧ e = .cycle id) ∨
    (g.claim? id = none ∧ e = .invalidSource .unknown id) ∨
    (∃ claim, g.claim? id = some claim ∧ claim.placement.size? = none ∧ e = .unmeasured id) ∨
    (id ∉ path ∧ g.contains (.claim id) ∧
      ∃ r ∈ g.incoming (.claim id), relationBox g settings (id :: path) r = .error e) := by
  rw [claimBox.eq_def] at herror
  split at herror
  next hcycle => exact .inl ⟨List.contains_iff_mem.1 hcycle, (Except.error.inj herror).symm⟩
  next hfresh =>
    rw [List.contains_iff_mem] at hfresh
    split at herror
    next hnone => exact .inr (.inl ⟨hnone, (Except.error.inj herror).symm⟩)
    next claim hclaim =>
      split at herror
      next hsize => exact .inr (.inr (.inl ⟨claim, hclaim, hsize, (Except.error.inj herror).symm⟩))
      next size hsize =>
        rcases Outcome.bind_eq_error.1 herror with hincoming | ⟨_, -, hpure⟩
        · exact .inr (.inr (.inr ⟨hfresh, Graph.contains_claim_iff.2 ⟨claim, hclaim⟩,
            Outcome.exists_of_mapM_eq_error hincoming⟩))
        · cases hpure

theorem relationBox_eq_error (h : g.WellFormed) {path : List ClaimId} {id : RelationId}
    {e : GraphError} (herror : relationBox g settings path id = .error e) :
    (g.relation? id = none ∧ e = .missingRelation id) ∨
    (∃ other ∈ g.incoming (.relation id), relationBox g settings path other = .error e) ∨
    ∃ r, g.relation? id = some r ∧ claimBox g settings path r.source = .error e := by
  cases hr : g.relation? id with
  | none =>
      rw [relationBox.eq_def] at herror
      simp only [hr] at herror
      exact .inl ⟨rfl, (Except.error.inj herror).symm⟩
  | some r =>
      rw [relationBox_eq h settings path hr] at herror
      rcases Outcome.bind_eq_error.1 herror with hincoming | ⟨_, -, hsource⟩
      · exact .inr (.inl (Outcome.exists_of_mapM_eq_error hincoming))
      · rcases Outcome.bind_eq_error.1 hsource with hsource | ⟨_, -, hpure⟩
        · exact .inr (.inr ⟨r, rfl, hsource⟩)
        · cases hpure

/-- What every column has whose parts have it, every column has that is built. -/
theorem built_induction (h : g.WellFormed) {OfClaim : List ClaimId → ClaimId → LayoutBox α → Prop}
    {OfRelation : List ClaimId → RelationId → LayoutBox α → Prop}
    (hclaim : ∀ path id claim size incoming, id ∉ path → g.claim? id = some claim →
      claim.placement.size? = some size →
      List.Forall₂ (OfRelation (id :: path)) (g.incoming (.claim id)) incoming →
      OfClaim path id (claimColumn settings id size incoming))
    (hrelation : ∀ path id r incoming source, g.relation? id = some r →
      List.Forall₂ (OfRelation path) (g.incoming (.relation id)) incoming →
      OfClaim path r.source source → OfRelation path id (relationColumn settings incoming source)) :
    (∀ path id box, claimBox g settings path id = .ok box → OfClaim path id box) ∧
    ∀ path id box, relationBox g settings path id = .ok box → OfRelation path id box := by
  apply claimBox.mutual_induct g (fun path id => ∀ box, claimBox g settings path id = .ok box →
    OfClaim path id box) fun path id => ∀ box, relationBox g settings path id = .ok box →
    OfRelation path id box
  case case1 =>
    intro path id hcycle box hbox
    exact absurd (List.contains_iff_mem.1 hcycle) (claimBox_eq_ok.1 hbox).1
  case case2 =>
    intro path id _ hnone box hbox
    obtain ⟨-, claim, _, _, hsome, -⟩ := claimBox_eq_ok.1 hbox
    rw [hnone] at hsome
    cases hsome
  case case3 =>
    intro path id _ claim hsome hsize box hbox
    obtain ⟨-, claim', _, _, hsome', hsize', -⟩ := claimBox_eq_ok.1 hbox
    rw [hsome] at hsome'
    cases hsome'
    rw [hsize] at hsize'
    cases hsize'
  case case4 =>
    intro path id _ _ _ _ _ ih box hbox
    obtain ⟨hfresh, claim, size, incoming, hsome, hsize, hincoming, rfl⟩ := claimBox_eq_ok.1 hbox
    exact hclaim path id claim size incoming hfresh hsome hsize
      (hincoming.imp fun r column hcolumn => ih r column hcolumn)
  case case5 =>
    intro path id hnone box hbox
    obtain ⟨r, _, _, hsome, -⟩ := (relationBox_eq_ok h).1 hbox
    rw [hnone] at hsome
    cases hsome
  case case6 =>
    intro path id r hr ihincoming ihsource box hbox
    obtain ⟨r', incoming, source, hr', hincoming, hsource, rfl⟩ := (relationBox_eq_ok h).1 hbox
    obtain rfl := Option.some.inj (hr.symm.trans hr')
    have hcalled : ∀ other ∈ g.incoming (.relation id), other ∈ incomingTo g id := by
      rw [incomingTo_eq h]
      exact fun _ hmem => hmem
    have hcolumns := (List.forall₂_and_left ..).2 ⟨hcalled, hincoming⟩
    exact hrelation path id r incoming source hr
      (hcolumns.imp fun other column ⟨hmem, hcolumn⟩ => ihincoming ⟨other, hmem⟩ column hcolumn)
      (ihsource source hsource)

end ArgumentDiagram.Layout
