import ArgumentDiagram.Proofs.Layout.Corners
import ArgumentDiagram.Proofs.Layout.Overlap

/-!
Where a layout puts the sources of relations, if no claim is the source of two of them. Then each claim stands in
one place only, which the calls of the layout lead to: the columns of the relations into a claim below the claim,
the column of a source below the room of its relation, and the columns of the relations into a relation within that
room. Main statement: a source stands below the claim that its relation points at, with the room of the relation
between them, and beside the arrow and above the source of a relation that its relation points at.
-/

open Relation

namespace ArgumentDiagram

/-- No claim is the source of two relations. -/
def Graph.SourcesOnce {α : Type} (g : Graph α) : Prop :=
  ∀ id other r r', g.relation? id = some r → g.relation? other = some r' → r.source = r'.source → id = other

namespace Layout

section

variable {α : Type} {g : Graph α} {settings : LayoutSettings α}

/-- What stands above the source in the column of a relation: its leaf spacer, or the row of the room for its
arrow and the columns of the relations that point at it. -/
def room (settings : LayoutSettings α) (incoming : List (LayoutBox α)) : LayoutBox α :=
  if incoming.isEmpty then .spacer settings.leafSpacer
  else row settings [.spacer settings.relationSpacer, column settings incoming]

theorem relationColumn_eq (settings : LayoutSettings α) (incoming : List (LayoutBox α)) (source : LayoutBox α) :
    relationColumn settings incoming source = column settings [room settings incoming, source] := rfl

theorem built_unique (hg : g.WellFormed) :
    (∀ path id box, claimBox g settings path id = .ok box →
      ∀ path' box', claimBox g settings path' id = .ok box' → box = box') ∧
    ∀ path id box, relationBox g settings path id = .ok box →
      ∀ path' box', relationBox g settings path' id = .ok box' → box = box' := by
  have hsame : ∀ {ids : List RelationId} {columns columns' : List (LayoutBox α)} {path' : List ClaimId},
      List.Forall₂ (fun id column => ∀ path' box', relationBox g settings path' id = .ok box' → column = box')
        ids columns →
      List.Forall₂ (fun id column => relationBox g settings path' id = .ok column) ids columns' →
      columns = columns' := by
    intro ids columns columns' path' hcolumns hcolumns'
    have hboth := (Outcome.forall₂_comp hcolumns.flip hcolumns').imp
      fun column column' ⟨id, hcolumn, hcolumn'⟩ => hcolumn path' column' hcolumn'
    rwa [List.forall₂_eq_eq_eq] at hboth
  apply built_induction hg
  · intro path id claim size incoming _ hclaim hsize hincoming path' box' hbox'
    obtain ⟨-, claim', size', incoming', hclaim', hsize', hincoming', rfl⟩ := claimBox_eq_ok.1 hbox'
    obtain rfl := Option.some.inj (hclaim.symm.trans hclaim')
    obtain rfl := Option.some.inj (hsize.symm.trans hsize')
    rw [hsame hincoming hincoming']
  · intro path id r incoming source hr hincoming hsource path' box' hbox'
    obtain ⟨r', incoming', source', hr', hincoming', hsource', rfl⟩ := (relationBox_eq_ok hg).1 hbox'
    obtain rfl := Option.some.inj (hr.symm.trans hr')
    rw [hsame hincoming hincoming', hsource path' source' hsource']

end

section

variable {α : Type} {g : Graph α} {settings : LayoutSettings α} {l : Layout α} {c : ClaimId}

/-- The way from a claim to a root is determined by the one relation that starts at each claim. -/
theorem isRootPath_unique (honce : g.SourcesOnce) {path path' : List RelationId} (h : g.IsRootPath c path)
    (h' : g.IsRootPath c path') : path = path' := by
  induction path generalizing c path' with
  | nil =>
      obtain ⟨d, hroot, rfl⟩ := h
      cases path' with
      | nil => rfl
      | cons id rest =>
          obtain ⟨_, -, r, _, hr, hsource, -, -⟩ := h'
          exact absurd hsource (hroot.2 id r hr)
  | cons id rest ih =>
      obtain ⟨d, hroot, r, b, hr, hsource, hends, hpath⟩ := h
      obtain ⟨d', hroot', hpath'⟩ := h'
      cases path' with
      | nil =>
          obtain rfl : c = d' := hpath'
          exact absurd hsource (hroot'.2 id r hr)
      | cons id' rest' =>
          obtain ⟨r', b', hr', hsource', hends', hpath'⟩ := hpath'
          obtain rfl := honce id id' r r' hr hr' (hsource.trans hsource'.symm)
          obtain rfl := Graph.endsAt_unique hends hends'
          rw [ih ⟨d, hroot, hpath⟩ ⟨d', hroot', hpath'⟩]

theorem count_leaves_of_once (hg : g.WellFormed) (honce : g.SourcesOnce) (hbuild : build g settings = .ok l)
    (hid : c ∈ l.root.leaves) : l.root.leaves.count c = 1 := by
  have htraces := traces_root hg hbuild
  obtain ⟨path, hpath⟩ := htraces.mem_iff.1 hid
  have hpaths : { path | g.IsRootPath c path } = {path} :=
    Set.eq_singleton_iff_unique_mem.2 ⟨hpath, fun other hother => isRootPath_unique honce hother hpath⟩
  have hcount := htraces.encard_eq_count c
  rw [hpaths, Set.encard_singleton] at hcount
  exact_mod_cast hcount.symm

/-- The claim at the end of the chain of a relation is placed if the source of the relation is. -/
theorem reachesRoot_of_source (honce : g.SourcesOnce) {id : RelationId} {r : Relation}
    (hr : g.relation? id = some r) (hends : g.EndsAt (.relation id) c) (hreach : g.ReachesRoot r.source) :
    g.ReachesRoot c := by
  obtain ⟨root, hroot, hfeeds⟩ := hreach
  rcases ReflTransGen.cases_head hfeeds with heq | ⟨next, ⟨id', r', hr', hsource, hnext⟩, hrest⟩
  · exact absurd heq (hroot.2 id r hr)
  · obtain rfl := honce id' id r' r hr' hr hsource
    obtain rfl := Graph.endsAt_unique hends hnext
    exact ⟨root, hroot, hrest⟩

variable [Scalar α]

theorem boxesOf_eq_singleton (hg : g.WellFormed) (honce : g.SourcesOnce) (hbuild : build g settings = .ok l)
    {placed : PlacedBox α} (hmem : placed ∈ l.outline) (hkind : placed.kind = .claim c) :
    c ∈ l.root.leaves ∧ l.outline.boxesOf c = [placed] := by
  have hbox : placed ∈ l.outline.boxesOf c := List.mem_filter.2 ⟨hmem, decide_eq_true hkind⟩
  have hid : c ∈ l.root.leaves := by
    rw [← claims_of_outline]
    exact List.mem_filterMap.2 ⟨placed, hmem, BoxKind.claim?_eq_some_iff.2 hkind⟩
  have hlength : (l.outline.boxesOf c).length = l.root.leaves.count c := by
    rw [← claims_of_outline, List.count_filterMap, List.countP_eq_length_filter]
    refine congrArg List.length (List.filter_congr fun placed _ => ?_)
    rw [Bool.eq_iff_iff, decide_eq_true_iff, beq_iff_eq, BoxKind.claim?_eq_some_iff]
  rw [count_leaves_of_once hg honce hbuild hid, List.length_eq_one_iff] at hlength
  obtain ⟨only, honly⟩ := hlength
  rw [honly, List.mem_singleton] at hbox
  exact ⟨hid, hbox ▸ honly⟩

/-- The layout takes a claim to where its one box is put. -/
theorem anchorRect?_apply (hg : g.WellFormed) (honce : g.SourcesOnce) (hbuild : build g settings = .ok l)
    {size : Size α} {corner : Point α} (hputs : l.root.Puts l.origin (.claim c size) corner) :
    ((l.apply g).claim? c).bind Claim.anchorRect? = some ⟨corner.x, corner.y, size.width, size.height⟩ := by
  obtain ⟨depth, hmem⟩ := hputs.mem_outline 0
  obtain ⟨hid, hboxes⟩ := boxesOf_eq_singleton hg honce hbuild hmem rfl
  obtain ⟨claim, last, -, hlast, hsize, hclaim⟩ := exists_last_box hg hbuild hid
  rw [hboxes, List.getLast?_singleton] at hlast
  obtain rfl := Option.some.inj hlast
  rw [hclaim, Option.bind_some, Claim.anchorRect?_moveTo hsize]
  simp only [LayoutBox.placed, LayoutBox.size]

end

section

variable {K : Type} [Field K] [LinearOrder K] [IsStrictOrderedRing K] [FloorSemiring K] [Angles K]
  {g : Graph K} {settings : LayoutSettings K} {incoming : List (LayoutBox K)} {box source : LayoutBox K}

/-- A claim stands where its column starts. -/
theorem exists_puts_claim {path : List ClaimId} {c : ClaimId} (hbuilt : claimBox g settings path c = .ok box)
    (corner : Point K) : ∃ size at', box.Puts corner (.claim c size) at' ∧ at'.y = corner.y := by
  obtain ⟨-, _, size, _, -, -, -, rfl⟩ := claimBox_eq_ok.1 hbuilt
  obtain ⟨at', hputs, hy⟩ := LayoutBox.exists_puts_first .vertical settings.verticalSpacing corner _ _
  exact ⟨size, at', hputs, hy⟩

/-- The columns of the relations into a claim start below the claim. -/
theorem exists_puts_incoming (hgaps : ∀ d, 0 ≤ settings.gap d) {id : ClaimId} {size : Size K}
    (hcolumn : (claimColumn settings id size incoming).Spacious settings.gap) (hmem : box ∈ incoming)
    (corner : Point K) : ∃ at', (claimColumn settings id size incoming).Puts corner box at' ∧
      corner.y + size.height + settings.verticalSpacing ≤ at'.y := by
  have hcolumns : claimColumn settings id size incoming =
      column settings [.claim id size, row settings incoming] := by
    rw [claimColumn, if_neg (by simpa using List.ne_nil_of_mem hmem)]
  rw [hcolumns] at hcolumn ⊢
  obtain ⟨below, hrow, hbelow⟩ := LayoutBox.exists_puts_second .vertical settings.verticalSpacing corner
    (.claim id size) (row settings incoming) []
  obtain ⟨at', hputs⟩ := LayoutBox.exists_puts_of_mem .horizontal settings.horizontalSpacing below hmem
  -- boxes of a row are centered, so they start no higher than the row does
  obtain ⟨hstart, -⟩ := LayoutBox.Puts.within hputs hgaps (hrow.madeOf hcolumn) .vertical
  refine ⟨at', hrow.trans hputs, ?_⟩
  calc corner.y + size.height + settings.verticalSpacing = below.y := by
        rw [LayoutBox.size] at hbelow
        exact hbelow.symm
    _ ≤ at'.y := hstart

/-- The column of a source starts below the room of its relation. -/
theorem exists_puts_source (incoming : List (LayoutBox K)) (source : LayoutBox K) (corner : Point K) :
    ∃ at', (relationColumn settings incoming source).Puts corner source at' ∧
      at'.y = corner.y + (room settings incoming).size.height + settings.verticalSpacing :=
  LayoutBox.exists_puts_second .vertical settings.verticalSpacing corner (room settings incoming) source []

theorem exists_puts_source_claim {path : List ClaimId} {c : ClaimId}
    (hsource : claimBox g settings path c = .ok source) (incoming : List (LayoutBox K)) (corner : Point K) :
    ∃ size at', (relationColumn settings incoming source).Puts corner (.claim c size) at' ∧
      at'.y = corner.y + (room settings incoming).size.height + settings.verticalSpacing := by
  obtain ⟨below, hcolumn, hbelow⟩ := exists_puts_source incoming source corner
  obtain ⟨size, at', hclaim, hy⟩ := exists_puts_claim hsource below
  exact ⟨size, at', hcolumn.trans hclaim, hy.trans hbelow⟩

/-- The columns of the relations into a relation start to the right of the room for its arrow. -/
theorem exists_puts_beside (hgaps : ∀ d, 0 ≤ settings.gap d)
    (hroom : (room settings incoming).Spacious settings.gap) (hmem : box ∈ incoming) (corner : Point K) :
    ∃ at', (room settings incoming).Puts corner box at' ∧
      corner.x + settings.relationSpacer.width + settings.horizontalSpacing ≤ at'.x := by
  have hrow : room settings incoming = row settings [.spacer settings.relationSpacer, column settings incoming] := by
    rw [room, if_neg (by simpa using List.ne_nil_of_mem hmem)]
  rw [hrow] at hroom ⊢
  obtain ⟨beside, hstack, hbeside⟩ := LayoutBox.exists_puts_second .horizontal settings.horizontalSpacing corner
    (.spacer settings.relationSpacer) (column settings incoming) []
  obtain ⟨at', hputs⟩ := LayoutBox.exists_puts_of_mem .vertical settings.verticalSpacing beside hmem
  obtain ⟨hstart, -⟩ := LayoutBox.Puts.within hputs hgaps (hstack.madeOf hroom) .horizontal
  refine ⟨at', hstack.trans hputs, ?_⟩
  calc corner.x + settings.relationSpacer.width + settings.horizontalSpacing = beside.x := by
        rw [LayoutBox.size] at hbeside
        exact hbeside.symm
    _ ≤ at'.x := hstart

end

/-! ### Where columns stand -/

section

variable {α : Type} [Scalar α] {g : Graph α} {settings : LayoutSettings α} {l : Layout α}

/-- The layout puts the column of a call at a corner. -/
def Stands (g : Graph α) (settings : LayoutSettings α) (l : Layout α) (call : Call) (corner : Point α) : Prop :=
  ∃ box, call.column g settings = .ok box ∧ l.root.Puts l.origin box corner

/-- The layout puts the column of a relation, with what it is made of, at a corner. -/
structure RelationStands (g : Graph α) (settings : LayoutSettings α) (l : Layout α) (path : List ClaimId)
    (id : RelationId) (r : Relation) (incoming : List (LayoutBox α)) (source : LayoutBox α) (corner : Point α) :
    Prop where
  relation : g.relation? id = some r
  columns : List.Forall₂ (fun other column => relationBox g settings path other = .ok column)
    (g.incoming (.relation id)) incoming
  sourceColumn : claimBox g settings path r.source = .ok source
  puts : l.root.Puts l.origin (relationColumn settings incoming source) corner

/-- The corner of the room in the column of a relation. -/
def roomCorner (settings : LayoutSettings α) (incoming : List (LayoutBox α)) (source : LayoutBox α)
    (corner : Point α) : Point α :=
  LayoutBox.childCorner .vertical corner (relationColumn settings incoming source).size
    (room settings incoming).size 0.0

/-- The room of a relation stands in a rectangle. -/
def RoomOf (g : Graph α) (settings : LayoutSettings α) (l : Layout α) (id : RelationId) (rect : Rect α) : Prop :=
  ∃ path r incoming source corner, RelationStands g settings l path id r incoming source corner ∧
    rect = ⟨(roomCorner settings incoming source corner).x, (roomCorner settings incoming source corner).y,
      (room settings incoming).size.width, (room settings incoming).size.height⟩

theorem Stands.exists_relation (hg : g.WellFormed) {path : List ClaimId} {id : RelationId} {corner : Point α}
    (h : Stands g settings l (.relation path id) corner) :
    ∃ r incoming source, RelationStands g settings l path id r incoming source corner := by
  obtain ⟨box, hbuilt, hputs⟩ := h
  obtain ⟨r, incoming, source, hr, hincoming, hsource, rfl⟩ := (relationBox_eq_ok hg).1 hbuilt
  exact ⟨r, incoming, source, hr, hincoming, hsource, hputs⟩

theorem stands_of_root (hbuild : build g settings = .ok l) {root : ClaimId} (hroot : g.IsRoot root) :
    ∃ corner, Stands g settings l (.claim [] root) corner := by
  obtain ⟨columns, hcolumns, rfl⟩ := build_eq_ok.1 hbuild
  obtain ⟨column, hmem, hbuilt⟩ := Outcome.exists_of_forall₂ hcolumns (Graph.mem_rootClaims_iff.2 hroot)
  obtain ⟨corner, hputs⟩ := LayoutBox.exists_puts_of_mem .horizontal settings.horizontalSpacing settings.origin hmem
  exact ⟨corner, column, hbuilt, hputs⟩

/-- The room of a relation is as high wherever its column stands. -/
theorem RelationStands.room_unique (hg : g.WellFormed) {path path' : List ClaimId} {id : RelationId}
    {r r' : Relation} {incoming incoming' : List (LayoutBox α)} {source source' : LayoutBox α}
    {corner corner' : Point α} (h : RelationStands g settings l path id r incoming source corner)
    (h' : RelationStands g settings l path' id r' incoming' source' corner') :
    room settings incoming = room settings incoming' := by
  have hbuilt := (relationBox_eq_ok hg).2 ⟨r, incoming, source, h.relation, h.columns, h.sourceColumn, rfl⟩
  have hbuilt' := (relationBox_eq_ok hg).2 ⟨r', incoming', source', h'.relation, h'.columns, h'.sourceColumn, rfl⟩
  have hcolumn := (built_unique hg).2 path id _ hbuilt path' _ hbuilt'
  rw [relationColumn_eq, relationColumn_eq] at hcolumn
  exact (List.cons.inj (LayoutBox.container.inj hcolumn).2.2).1

end

section

variable {K : Type} [Field K] [LinearOrder K] [IsStrictOrderedRing K] [FloorSemiring K] [Angles K]
  {g : Graph K} {settings : LayoutSettings K} {l : Layout K} {corner : Point K} {path : List ClaimId} {c : ClaimId}

/-- The columns of the relations into a claim stand below it. -/
theorem Stands.below_claim (hgaps : ∀ d, 0 ≤ settings.gap d) (hroot : l.root.Spacious settings.gap)
    (h : Stands g settings l (.claim path c) corner) :
    ∃ size at', l.root.Puts l.origin (.claim c size) at' ∧ at'.y = corner.y ∧
      ∀ r ∈ g.incoming (.claim c), ∃ below, Stands g settings l (.relation (c :: path) r) below ∧
        at'.y + size.height + settings.verticalSpacing ≤ below.y := by
  obtain ⟨box, hbuilt, hputs⟩ := h
  obtain ⟨-, _, size, incoming, -, -, hincoming, rfl⟩ := claimBox_eq_ok.1 hbuilt
  obtain ⟨at', hclaim, hy⟩ := LayoutBox.exists_puts_first .vertical settings.verticalSpacing corner
    (.claim c size) (if incoming.isEmpty then [] else [row settings incoming])
  have hy : at'.y = corner.y := hy
  refine ⟨size, at', hputs.trans hclaim, hy, fun r hmem => ?_⟩
  obtain ⟨column, hcolumn, hbuilt⟩ := Outcome.exists_of_forall₂ hincoming hmem
  obtain ⟨below, hbelow, hlow⟩ := exists_puts_incoming hgaps (hputs.madeOf hroot) hcolumn corner
  rw [hy]
  exact ⟨below, ⟨column, hbuilt, hputs.trans hbelow⟩, hlow⟩

namespace RelationStands

variable {id : RelationId} {r : Relation} {incoming : List (LayoutBox K)} {source : LayoutBox K}
  (h : RelationStands g settings l path id r incoming source corner)

include h

theorem source_stands : ∃ below, Stands g settings l (.claim path r.source) below ∧
    below.y = corner.y + (room settings incoming).size.height + settings.verticalSpacing := by
  obtain ⟨below, hputs, hy⟩ := exists_puts_source incoming source corner
  exact ⟨below, ⟨source, h.sourceColumn, h.puts.trans hputs⟩, hy⟩

theorem room_puts : l.root.Puts l.origin (room settings incoming) (roomCorner settings incoming source corner) ∧
    (roomCorner settings incoming source corner).y = corner.y := by
  have hputs : (column settings ([] ++ room settings incoming :: [source])).Puts corner (room settings incoming)
      (roomCorner settings incoming source corner) := .child .self
  refine ⟨h.puts.trans hputs, ?_⟩
  calc (roomCorner settings incoming source corner).y = corner.y + 0.0 := rfl
    _ = corner.y := by rw [exact_zero, add_zero]

/-- The columns of the relations into a relation stand in its room, to the right of the room for its arrow. -/
theorem incoming_beside (hgaps : ∀ d, 0 ≤ settings.gap d) (hroot : l.root.Spacious settings.gap) {q : RelationId}
    (hmem : q ∈ g.incoming (.relation id)) : ∃ column at', relationBox g settings path q = .ok column ∧
      (room settings incoming).Puts (roomCorner settings incoming source corner) column at' ∧
      (roomCorner settings incoming source corner).x + settings.relationSpacer.width +
        settings.horizontalSpacing ≤ at'.x := by
  obtain ⟨column, hcolumn, hbuilt⟩ := Outcome.exists_of_forall₂ h.columns hmem
  obtain ⟨at', hputs, hbeside⟩ := exists_puts_beside hgaps (h.room_puts.1.madeOf hroot) hcolumn
    (roomCorner settings incoming source corner)
  exact ⟨column, at', hbuilt, hputs, hbeside⟩

end RelationStands

/-- What a standing column calls for stands, too. -/
theorem Stands.calls (hg : g.WellFormed) (hgaps : ∀ d, 0 ≤ settings.gap d) (hroot : l.root.Spacious settings.gap)
    {call next : Call} (h : Stands g settings l call corner) (hcalls : Calls g call next) :
    ∃ at', Stands g settings l next at' := by
  cases hcalls with
  | incoming_claim _ _ hmem =>
      obtain ⟨_, _, -, -, hincoming⟩ := h.below_claim hgaps hroot
      obtain ⟨below, hbelow, -⟩ := hincoming _ hmem
      exact ⟨below, hbelow⟩
  | incoming_relation hmem =>
      obtain ⟨r, incoming, source, hrelation⟩ := h.exists_relation hg
      obtain ⟨column, at', hbuilt, hputs, -⟩ := hrelation.incoming_beside hgaps hroot hmem
      exact ⟨at', column, hbuilt, hrelation.room_puts.1.trans hputs⟩
  | source hr =>
      obtain ⟨r, incoming, source, hrelation⟩ := h.exists_relation hg
      obtain rfl := Option.some.inj (hr.symm.trans hrelation.relation)
      obtain ⟨below, hbelow, -⟩ := hrelation.source_stands
      exact ⟨below, hbelow⟩

theorem Stands.calls_star (hg : g.WellFormed) (hgaps : ∀ d, 0 ≤ settings.gap d)
    (hroot : l.root.Spacious settings.gap) {call next : Call} (h : Stands g settings l call corner)
    (hcalls : ReflTransGen (Calls g) call next) : ∃ at', Stands g settings l next at' := by
  induction hcalls with
  | refl => exact ⟨corner, h⟩
  | tail _ hstep ih =>
      obtain ⟨_, hmiddle⟩ := ih
      exact hmiddle.calls hg hgaps hroot hstep

/-- The columns of all relations whose chains end at a claim stand, if the column of the claim does. -/
theorem Stands.of_endsAt (hg : g.WellFormed) (hgaps : ∀ d, 0 ≤ settings.gap d)
    (hroot : l.root.Spacious settings.gap) (h : Stands g settings l (.claim path c) corner) {id : RelationId}
    (hends : g.EndsAt (.relation id) c) : ∃ at', Stands g settings l (.relation (c :: path) id) at' := by
  have ⟨box, hbuilt, _⟩ := h
  obtain ⟨hfresh, claim, _, _, hclaim, -⟩ := claimBox_eq_ok.1 hbuilt
  have hlive := Graph.contains_claim_iff.2 ⟨claim, hclaim⟩
  exact h.calls_star hg hgaps hroot (calls_of_endsAt hg hfresh hlive hends)

/-- The column of every claim above a root stands somewhere. -/
theorem exists_stands (hg : g.WellFormed) (hgaps : ∀ d, 0 ≤ settings.gap d) (hroot : l.root.Spacious settings.gap)
    (hbuild : build g settings = .ok l) (hreach : g.ReachesRoot c) :
    ∃ path corner, Stands g settings l (.claim path c) corner := by
  obtain ⟨root, hisRoot, hfeeds⟩ := hreach
  induction hfeeds using ReflTransGen.head_induction_on with
  | refl =>
      obtain ⟨corner, hstands⟩ := stands_of_root hbuild hisRoot
      exact ⟨[], corner, hstands⟩
  | @head c d hstep _ ih =>
      obtain ⟨path, corner, hstands⟩ := ih
      obtain ⟨id, r, hr, rfl, hends⟩ := hstep
      obtain ⟨_, hrelation⟩ := hstands.of_endsAt hg hgaps hroot hends
      obtain ⟨at', hsource⟩ := hrelation.calls hg hgaps hroot (.source hr)
      exact ⟨d :: path, at', hsource⟩

/-- The column of a relation stands if the claim at the end of its chain is above a root. -/
theorem exists_relationStands (hg : g.WellFormed) (hgaps : ∀ d, 0 ≤ settings.gap d)
    (hroot : l.root.Spacious settings.gap) (hbuild : build g settings = .ok l) {id : RelationId} {r : Relation}
    (hr : g.relation? id = some r) (hends : g.EndsAt (.relation id) c) (hreach : g.ReachesRoot c) :
    ∃ path incoming source corner, RelationStands g settings l path id r incoming source corner := by
  obtain ⟨path, _, hclaim⟩ := exists_stands hg hgaps hroot hbuild hreach
  obtain ⟨corner, hrelation⟩ := hclaim.of_endsAt hg hgaps hroot hends
  obtain ⟨r', incoming, source, hstands⟩ := hrelation.exists_relation hg
  obtain rfl := Option.some.inj (hr.symm.trans hstands.relation)
  exact ⟨_, incoming, source, corner, hstands⟩

/-- The source of a relation into a relation stands in the room of that, and so above its source. -/
theorem RelationStands.beside_source (hg : g.WellFormed) (hgaps : ∀ d, 0 ≤ settings.gap d)
    (hroot : l.root.Spacious settings.gap) {id q : RelationId} {r attack : Relation}
    {incoming : List (LayoutBox K)} {source : LayoutBox K}
    (h : RelationStands g settings l path id r incoming source corner) (hq : g.relation? q = some attack)
    (htarget : attack.target = .relation id) :
    ∃ size size' at' below, l.root.Puts l.origin (.claim attack.source size) at' ∧
      l.root.Puts l.origin (.claim r.source size') below ∧
      at'.y + size.height + settings.verticalSpacing ≤ below.y ∧
      (roomCorner settings incoming source corner).x + settings.relationSpacer.width +
        settings.horizontalSpacing ≤ at'.x := by
  obtain ⟨hroom, hroomTop⟩ := h.room_puts
  obtain ⟨column, side, hbuilt, hcolumn, hbeside⟩ :=
    h.incoming_beside hgaps hroot ((Graph.mem_incoming_iff hg).2 ⟨attack, hq, htarget⟩)
  obtain ⟨attack', incoming', source', hq', -, hsource', rfl⟩ := (relationBox_eq_ok hg).1 hbuilt
  obtain rfl := Option.some.inj (hq.symm.trans hq')
  obtain ⟨size, at', hclaim, -⟩ := exists_puts_source_claim hsource' incoming' side
  obtain ⟨size', below, hbelow, hy⟩ := exists_puts_source_claim h.sourceColumn incoming corner
  have hspacious := hroom.madeOf hroot
  obtain ⟨hleft, -⟩ := LayoutBox.Puts.within hclaim hgaps (hcolumn.madeOf hspacious) .horizontal
  obtain ⟨-, hbottom⟩ := LayoutBox.Puts.within (hcolumn.trans hclaim) hgaps hspacious .vertical
  have hleft : side.x ≤ at'.x := hleft
  have hbottom : at'.y + size.height ≤ corner.y + (room settings incoming).size.height := by
    rw [← hroomTop]
    rw [LayoutBox.size] at hbottom
    exact hbottom
  refine ⟨size, size', at', below, hroom.trans (hcolumn.trans hclaim), h.puts.trans hbelow, ?_, ?_⟩
  · linarith
  · linarith

/-- If each claim is the source of one relation at most, a source that is placed stands below the claim that its
relation points at, with the room of the relation and a gap on either side of that between them. And if its
relation points at a relation, it stands in the room of that, to the right of the room for the arrow, and ends a
gap above the source of that. -/
theorem sources_below_and_beside (h : g.Reachable) (hsettings : settings.Roomy)
    (hclaims : ∀ id claim size, g.claim? id = some claim → claim.placement.size? = some size →
      0 ≤ size.width ∧ 0 ≤ size.height)
    (honce : g.SourcesOnce) (hbuild : build g settings = .ok l) :
    (∀ id r c, g.relation? id = some r → r.target = .claim c → r.source ∈ l.root.leaves →
      ∃ above below, ((l.apply g).claim? c).bind Claim.anchorRect? = some above ∧
        ((l.apply g).claim? r.source).bind Claim.anchorRect? = some below ∧
        (∃ room, RoomOf g settings l id room) ∧ ∀ room, RoomOf g settings l id room →
          above.bottom + settings.verticalSpacing + room.height + settings.verticalSpacing ≤ below.y) ∧
    ∀ q attack id r, g.relation? q = some attack → attack.target = .relation id → g.relation? id = some r →
      attack.source ∈ l.root.leaves →
      ∃ beside below, ((l.apply g).claim? attack.source).bind Claim.anchorRect? = some beside ∧
        ((l.apply g).claim? r.source).bind Claim.anchorRect? = some below ∧
        beside.bottom + settings.verticalSpacing ≤ below.y ∧
        (∃ room, RoomOf g settings l id room) ∧ ∀ room, RoomOf g settings l id room →
          room.x + settings.relationSpacer.width + settings.horizontalSpacing ≤ beside.x := by
  have hg := h.wellFormed
  have hgaps := hsettings.gap
  have hroot := spacious_root hg hsettings hclaims hbuild
  have hreach : ∀ {c}, c ∈ l.root.leaves → g.ReachesRoot c := fun hmem =>
    Graph.exists_isRootPath_iff.1 ((traces_root hg hbuild).mem_iff.1 hmem)
  constructor
  · intro id r c hr htarget hplaced
    have hends : g.EndsAt (.relation id) c := .single (.of_target hr htarget)
    obtain ⟨path, corner, hstands⟩ :=
      exists_stands hg hgaps hroot hbuild (reachesRoot_of_source honce hr hends (hreach hplaced))
    obtain ⟨size, at', hclaim, -, hbelow⟩ := hstands.below_claim hgaps hroot
    obtain ⟨start, hrelation, hstart⟩ := hbelow id ((Graph.mem_incoming_iff hg).2 ⟨r, hr, htarget⟩)
    obtain ⟨r', incoming, source, hrelation⟩ := hrelation.exists_relation hg
    obtain rfl := Option.some.inj (hr.symm.trans hrelation.relation)
    obtain ⟨size', below, hsource, hy⟩ := exists_puts_source_claim hrelation.sourceColumn incoming start
    refine ⟨_, _, anchorRect?_apply hg honce hbuild hclaim,
      anchorRect?_apply hg honce hbuild (hrelation.puts.trans hsource),
      ⟨_, _, r, incoming, source, start, hrelation, rfl⟩, ?_⟩
    rintro _ ⟨path', r', incoming', source', corner', hrelation', rfl⟩
    rw [← hrelation.room_unique hg hrelation']
    show at'.y + size.height + settings.verticalSpacing + (room settings incoming).size.height +
      settings.verticalSpacing ≤ below.y
    linarith
  · intro q attack id r hq htarget hr hplaced
    obtain ⟨d, hends, -⟩ := hg.exists_endsAt (Graph.contains_relation_iff.2 ⟨r, hr⟩)
    have hreaches := reachesRoot_of_source honce hq (hends.head (.of_target hq htarget)) (hreach hplaced)
    obtain ⟨path, incoming, source, corner, hrelation⟩ :=
      exists_relationStands hg hgaps hroot hbuild hr hends hreaches
    obtain ⟨size, size', at', below, hattack, hsource, habove, -⟩ :=
      hrelation.beside_source hg hgaps hroot hq htarget
    have hbeside := anchorRect?_apply hg honce hbuild hattack
    refine ⟨_, _, hbeside, anchorRect?_apply hg honce hbuild hsource, habove,
      ⟨_, path, r, incoming, source, corner, hrelation, rfl⟩, ?_⟩
    rintro _ ⟨path', r', incoming', source', corner', hrelation', rfl⟩
    obtain ⟨_, _, other, _, hattack', -, -, hleft⟩ := hrelation'.beside_source hg hgaps hroot hq htarget
    -- the source has one place only, so it stands in every room that the relation has
    have hsame := Option.some.inj (hbeside.symm.trans (anchorRect?_apply hg honce hbuild hattack'))
    rw [hsame]
    exact hleft

/-- A claim that is supported, and a claim that is turned on the support. -/
theorem sources_below_and_beside_of_attack : ∃ (g : Graph ℚ) (l : Layout ℚ),
    g.Reachable ∧ (LayoutSettings.standard : LayoutSettings ℚ).Roomy ∧ g.SourcesOnce ∧
      build g .standard = .ok l ∧ ∃ root support attack room : Rect ℚ,
        ((l.apply g).claim? ⟨0⟩).bind Claim.anchorRect? = some root ∧
        ((l.apply g).claim? ⟨1⟩).bind Claim.anchorRect? = some support ∧
        ((l.apply g).claim? ⟨2⟩).bind Claim.anchorRect? = some attack ∧ RoomOf g .standard l ⟨0⟩ room ∧
        root.bottom + 10 + room.height + 10 ≤ support.y ∧ attack.bottom + 10 ≤ support.y ∧
        room.x + 200 + 10 ≤ attack.x := by
  let first : Relation := ⟨⟨0⟩, ⟨1⟩, .claim ⟨0⟩, none, .plain⟩
  let second : Relation := ⟨⟨1⟩, ⟨2⟩, .relation ⟨0⟩, none, .plain⟩
  obtain ⟨start, hstart, hrelations⟩ : ∃ start : Graph ℚ, start.Reachable ∧
      start.relations.entries = [(⟨0⟩, first), (⟨1⟩, second)] :=
    ⟨Graph.empty.after [.addClaim "root" .plain, .addClaim "support" .plain, .addClaim "attack" .plain,
      .addRelation [⟨1⟩] (.claim ⟨0⟩) none .plain, .addRelation [⟨2⟩] (.relation ⟨0⟩) none .plain], ⟨_, rfl⟩, rfl⟩
  have hrelation : ∀ {id r}, start.relation? id = some r ↔
      (id, r) ∈ [((⟨0⟩ : RelationId), first), (⟨1⟩, second)] := by
    intro id r
    rw [Graph.relation?, Table.get?_eq_some_iff, hrelations]
  have hcases : ∀ {id r}, start.relation? id = some r → id = ⟨0⟩ ∧ r = first ∨ id = ⟨1⟩ ∧ r = second := by
    intro id r hr
    simpa using hrelation.1 hr
  have hfirst : start.relation? ⟨0⟩ = some first := hrelation.2 (by simp)
  have hsecond : start.relation? ⟨1⟩ = some second := hrelation.2 (by simp)
  have hroot : start.IsRoot ⟨0⟩ := by
    refine ⟨hstart.wellFormed.target_live hfirst, fun id r hr => ?_⟩
    rcases hcases hr with ⟨-, rfl⟩ | ⟨-, rfl⟩ <;> decide
  have hends : ∀ id r, start.relation? id = some r → start.EndsAt (.relation id) ⟨0⟩ := by
    intro id r hr
    rcases hcases hr with ⟨rfl, rfl⟩ | ⟨rfl, rfl⟩
    · exact .single (.of_target hfirst rfl)
    · exact .head (.of_target hsecond rfl) (.single (.of_target hfirst rfl))
  obtain ⟨g, l, hg, hbuild, hsame, hsize⟩ :=
    exists_measured_build (LayoutSettings.standard : LayoutSettings ℚ) ⟨100, 30⟩ hstart hroot hends
  have hsettings : (LayoutSettings.standard : LayoutSettings ℚ).Roomy := LayoutSettings.roomy_standard
  have hclaims : ∀ id claim size, g.claim? id = some claim → claim.placement.size? = some size →
      0 ≤ size.width ∧ 0 ≤ size.height := by
    intro id claim size hclaim hclaimSize
    obtain rfl := Option.some.inj ((hsize id claim hclaim).symm.trans hclaimSize)
    norm_num
  have honce : g.SourcesOnce := by
    intro id other r r' hr hr' hsource
    rw [hsame.relation?] at hr hr'
    rcases hcases hr with ⟨rfl, rfl⟩ | ⟨rfl, rfl⟩ <;> rcases hcases hr' with ⟨rfl, rfl⟩ | ⟨rfl, rfl⟩
    · rfl
    · cases hsource
    · cases hsource
    · rfl
  have hplaced : ∀ {id r}, start.relation? id = some r → r.source ∈ l.root.leaves := fun {id r} hr =>
    (traces_root hg.wellFormed hbuild).mem_iff.2 ⟨[id], ⟨0⟩, hsame.isRoot hroot, r, ⟨0⟩,
      (hsame.relation? id).trans hr, rfl, hsame.endsAt (hends id r hr), rfl⟩
  obtain ⟨hbelow, hbeside⟩ := sources_below_and_beside hg hsettings hclaims honce hbuild
  obtain ⟨root, support, hrootAt, hsupport, ⟨room, hroom⟩, hlow⟩ :=
    hbelow ⟨0⟩ first ⟨0⟩ ((hsame.relation? _).trans hfirst) rfl (hplaced hfirst)
  obtain ⟨attack, support', hattack, hsupport', habove, -, hleft⟩ :=
    hbeside ⟨1⟩ second ⟨0⟩ first ((hsame.relation? _).trans hsecond) rfl ((hsame.relation? _).trans hfirst)
      (hplaced hsecond)
  obtain rfl := Option.some.inj (hsupport.symm.trans hsupport')
  refine ⟨g, l, hg, hsettings, honce, hbuild, root, support, attack, room, hrootAt, hsupport, hattack, hroom, ?_⟩
  have hlow := hlow room hroom
  have hleft := hleft room hroom
  norm_num [LayoutSettings.standard] at hlow habove hleft
  exact ⟨hlow, habove, hleft⟩

end

end Layout

end ArgumentDiagram
