import ArgumentDiagram.Proofs.Layout.Packing
import ArgumentDiagram.Proofs.Layout.Placing
import ArgumentDiagram.Proofs.Layout.Verdict

/-!
What a layout is made of: rows and columns that keep the gaps of the settings, boxes of claims, as large as
the claims are, and the rooms of the settings. An outline has such leaves too.
-/

namespace ArgumentDiagram

/-- The gap between the boxes of a row or a column. -/
def LayoutSettings.gap {α : Type} (settings : LayoutSettings α) : Direction → α
  | .horizontal => settings.horizontalSpacing
  | .vertical => settings.verticalSpacing

namespace Layout

variable {α : Type} {g : Graph α} {settings : LayoutSettings α}

/-- The leaves that a layout of a graph can have. -/
def LeafOf (g : Graph α) (settings : LayoutSettings α) : BoxKind → Size α → Prop
  | .claim id, size => ∃ claim, g.claim? id = some claim ∧ claim.placement.size? = some size
  | .spacer, size => size = settings.leafSpacer ∨ size = settings.relationSpacer
  | .container _, _ => False

/-- Boxes that a layout of a graph can have. -/
abbrev Made (g : Graph α) (settings : LayoutSettings α) (box : LayoutBox α) : Prop :=
  box.MadeOf settings.gap (LeafOf g settings)

theorem made_column {children : List (LayoutBox α)} (h : ∀ child ∈ children, Made g settings child) :
    Made g settings (column settings children) := .container h

theorem made_row {children : List (LayoutBox α)} (h : ∀ child ∈ children, Made g settings child) :
    Made g settings (row settings children) := .container h

theorem made_claimColumn {id : ClaimId} {size : Size α} {incoming : List (LayoutBox α)}
    (hleaf : LeafOf g settings (.claim id) size) (h : ∀ column ∈ incoming, Made g settings column) :
    Made g settings (claimColumn settings id size incoming) := by
  apply made_column
  intro child hmem
  rcases List.mem_cons.1 hmem with rfl | hmem
  · exact .claim hleaf
  · split at hmem
    · simp at hmem
    · obtain rfl := List.mem_singleton.1 hmem
      exact made_row h

theorem made_relationColumn {incoming : List (LayoutBox α)} {source : LayoutBox α}
    (h : ∀ column ∈ incoming, Made g settings column) (hsource : Made g settings source) :
    Made g settings (relationColumn settings incoming source) := by
  have hleaf : Made g settings (.spacer settings.leafSpacer) := .spacer (.inl rfl)
  have harrow : Made g settings (.spacer settings.relationSpacer) := .spacer (.inr rfl)
  apply made_column
  intro child hmem
  rcases List.mem_cons.1 hmem with rfl | hmem
  · split
    · exact hleaf
    · apply made_row
      intro part hpart
      rcases List.mem_cons.1 hpart with rfl | hpart
      · exact harrow
      · obtain rfl := List.mem_singleton.1 hpart
        exact made_column h
  · obtain rfl := List.mem_singleton.1 hmem
    exact hsource

theorem made_columns (h : g.WellFormed) :
    (∀ path id box, claimBox g settings path id = .ok box → Made g settings box) ∧
    ∀ path id box, relationBox g settings path id = .ok box → Made g settings box := by
  have hall : ∀ {ids : List RelationId} {columns : List (LayoutBox α)},
      List.Forall₂ (fun _ column => Made g settings column) ids columns →
      ∀ column ∈ columns, Made g settings column := by
    intro ids columns hcolumns column hmem
    obtain ⟨_, -, hcolumn⟩ := Outcome.exists_of_forall₂ hcolumns.flip hmem
    exact hcolumn
  apply built_induction h
  · intro path id claim size incoming _ hclaim hsize hincoming
    exact made_claimColumn ⟨claim, hclaim, hsize⟩ (hall hincoming)
  · intro path id r incoming source _ hincoming hsource
    exact made_relationColumn (hall hincoming) hsource

theorem made_root (h : g.WellFormed) {l : Layout α} (hbuild : build g settings = .ok l) :
    Made g settings l.root := by
  obtain ⟨columns, hcolumns, rfl⟩ := build_eq_ok.1 hbuild
  apply made_row
  intro column hmem
  obtain ⟨root, -, hcolumn⟩ := Outcome.exists_of_forall₂ hcolumns.flip hmem
  exact (made_columns h).1 [] root column hcolumn

end Layout

namespace LayoutBox

variable {α : Type} [Scalar α] {gaps : Direction → α} {leaf : BoxKind → Size α → Prop}

/-- The leaves of a box are as they should be in its outline, too. -/
theorem leaf_of_mem_outline :
    (∀ (box : LayoutBox α) (corner : Point α) (depth : Nat), box.MadeOf gaps leaf →
      ∀ placed ∈ box.outline corner depth, (∀ d, placed.kind ≠ .container d) →
        leaf placed.kind placed.rect.size) ∧
    ∀ (d : Direction) (gap : α) (outer : Size α) (corner : Point α) (depth : Nat)
      (children : List (LayoutBox α)) (along : α), (∀ child ∈ children, child.MadeOf gaps leaf) →
      ∀ placed ∈ outlineChildren d gap outer corner depth children along,
        (∀ d, placed.kind ≠ .container d) → leaf placed.kind placed.rect.size := by
  apply outline.mutual_induct
  · intro corner depth d gap children size ih hmade placed hmem hkind
    cases hmade with
    | container hchildren =>
        rw [outline, List.mem_cons] at hmem
        rcases hmem with rfl | hmem
        · exact absurd rfl (hkind d)
        · exact ih hchildren placed hmem hkind
  · intro corner depth id size hmade placed hmem _
    cases hmade with
    | claim hleaf =>
        rw [outline, List.mem_singleton] at hmem
        subst hmem
        simpa [kind, LayoutBox.size, Rect.size] using hleaf
  · intro corner depth size hmade placed hmem _
    cases hmade with
    | spacer hleaf =>
        rw [outline, List.mem_singleton] at hmem
        subst hmem
        simpa [kind, LayoutBox.size, Rect.size] using hleaf
  · intro d gap outer corner depth along _ placed hmem
    simp [outlineChildren] at hmem
  · intro d gap outer corner depth child rest along ihchild ihrest hmade placed hmem hkind
    rw [outlineChildren, List.mem_append] at hmem
    rcases hmem with hmem | hmem
    · exact ihchild (hmade child List.mem_cons_self) placed hmem hkind
    · exact ihrest (fun other hother => hmade other (List.mem_cons_of_mem _ hother)) placed hmem hkind

end LayoutBox

namespace Layout

variable {α : Type} [Scalar α] {g : Graph α} {settings : LayoutSettings α} {l : Layout α}

/-- A placed claim ends up at the corner of its last box, which is as large as the claim. -/
theorem exists_last_box (h : g.WellFormed) (hbuild : build g settings = .ok l) {id : ClaimId}
    (hid : id ∈ l.root.leaves) : ∃ claim last, g.claim? id = some claim ∧
      (l.outline.boxesOf id).getLast? = some last ∧ claim.placement.size? = some last.rect.size ∧
      (l.apply g).claim? id = some (claim.mapPlacement (·.moveTo ⟨last.rect.x, last.rect.y⟩)) := by
  cases hlast : (l.outline.boxesOf id).getLast? with
  | none =>
      have hcorner : l.outline.lastCorner? id = none := by rw [Outline.lastCorner?, hlast]; rfl
      rw [Outline.lastCorner?_eq_none_iff, claims_of_outline] at hcorner
      exact absurd hid hcorner
  | some last =>
      obtain ⟨hmem, hkind⟩ := List.mem_filter.1 (List.mem_of_getLast? hlast)
      have hkind : last.kind = .claim id := by simpa using hkind
      have hleaf := LayoutBox.leaf_of_mem_outline.1 _ _ _ (made_root h hbuild) last hmem (by simp [hkind])
      rw [hkind] at hleaf
      obtain ⟨claim, hclaim, hsize⟩ := hleaf
      refine ⟨claim, last, hclaim, rfl, hsize, ?_⟩
      rw [apply, claim?_moveClaims, Outline.lastCorner?, hlast, hclaim]
      rfl

end Layout

end ArgumentDiagram
