import ArgumentDiagram.Proofs.Layout.Arrangement
import ArgumentDiagram.Proofs.Layout.Parts
import ArgumentDiagram.Proofs.Layout.RootPaths

/-!
Layouts in exact arithmetic. Main statement: if no size, room or gap is negative, the boxes of a layout are
nested without overlapping, and the claims that it places do not overlap either, wherever each ends up.
-/

namespace ArgumentDiagram

/-- A claim at its anchor, without the offset of a drag in progress. -/
def Claim.anchorRect? {α : Type} (c : Claim α) : Option (Rect α) :=
  c.placement.size?.map fun size =>
    ⟨c.placement.anchor.x, c.placement.anchor.y, size.width, size.height⟩

theorem Claim.anchorRect?_moveTo {α : Type} {c : Claim α} {r : Rect α}
    (h : c.placement.size? = some r.size) :
    (c.mapPlacement (·.moveTo ⟨r.x, r.y⟩)).anchorRect? = some r := by
  have hsize : (c.mapPlacement (·.moveTo ⟨r.x, r.y⟩)).placement.size? = c.placement.size? := rfl
  rw [anchorRect?, hsize, h]
  rfl

variable {K : Type} [Field K] [LinearOrder K]

/-- Settings without negative gaps and rooms. -/
structure LayoutSettings.Roomy (settings : LayoutSettings K) : Prop where
  gap : ∀ d, 0 ≤ settings.gap d
  relationSpacer : 0 ≤ settings.relationSpacer.width ∧ 0 ≤ settings.relationSpacer.height
  leafSpacer : 0 ≤ settings.leafSpacer.width ∧ 0 ≤ settings.leafSpacer.height

theorem LayoutSettings.roomy_standard [IsStrictOrderedRing K] : (standard : LayoutSettings K).Roomy := by
  refine ⟨fun d => ?_, ?_, ?_⟩
  · cases d <;> norm_num [gap, standard]
  · norm_num [standard]
  · norm_num [standard]

namespace Layout

variable {g : Graph K} {settings : LayoutSettings K} {l : Layout K}

theorem spacious_root (h : g.WellFormed) (hsettings : settings.Roomy)
    (hclaims : ∀ id claim size, g.claim? id = some claim → claim.placement.size? = some size →
      0 ≤ size.width ∧ 0 ≤ size.height)
    (hbuild : build g settings = .ok l) : l.root.Spacious settings.gap := by
  have hnonneg : ∀ {size : Size K}, 0 ≤ size.width ∧ 0 ≤ size.height →
      ∀ d, 0 ≤ LayoutBox.length d size := by
    rintro size ⟨hwidth, hheight⟩ d
    cases d
    · exact hwidth
    · exact hheight
  apply (made_root h hbuild).imp
  intro kind size hleaf
  cases kind with
  | container d => exact hleaf.elim
  | spacer =>
      rcases hleaf with rfl | rfl
      · exact hnonneg hsettings.leafSpacer
      · exact hnonneg hsettings.relationSpacer
  | claim id =>
      obtain ⟨claim, hclaim, hsize⟩ := hleaf
      exact hnonneg (hclaims id claim size hclaim hsize)

variable [IsStrictOrderedRing K] [FloorSemiring K] [Angles K]

/-- No two boxes of a layout overlap unless one holds the other, and then it encloses it; the whole encloses
them all, and the boxes of rows and columns are one gap apart. Applying the layout takes each claim that it
places to the corner of the last of its boxes, so none of these overlaps another. -/
theorem boxes_nested_apart (h : g.Reachable) (hsettings : settings.Roomy)
    (hclaims : ∀ id claim size, g.claim? id = some claim → claim.placement.size? = some size →
      0 ≤ size.width ∧ 0 ≤ size.height)
    (hbuild : build g settings = .ok l) :
    (∀ placed ∈ l.outline,
      Rect.Encloses ⟨settings.origin.x, settings.origin.y, l.size.width, l.size.height⟩ placed.rect) ∧
    (∀ box after, box :: after <:+ l.outline → box.Settled settings.gap after) ∧
    (∀ id ∈ l.root.leaves, ∃ claim last, g.claim? id = some claim ∧
      (l.outline.boxesOf id).getLast? = some last ∧ claim.placement.size? = some last.rect.size ∧
      (l.apply g).claim? id = some (claim.mapPlacement (·.moveTo ⟨last.rect.x, last.rect.y⟩))) ∧
    ∀ id ∈ l.root.leaves, ∀ other ∈ l.root.leaves, id ≠ other →
      ∃ r s, ((l.apply g).claim? id).bind Claim.anchorRect? = some r ∧
        ((l.apply g).claim? other).bind Claim.anchorRect? = some s ∧ r.intersects s = false := by
  have hspacious := spacious_root h.wellFormed hsettings hclaims hbuild
  have harranged : Arranged settings.gap l.outline :=
    (LayoutBox.arranged_outline hsettings.gap).1 l.root l.origin 0 hspacious
  have hlast := fun id (hid : id ∈ l.root.leaves) => exists_last_box h.wellFormed hbuild hid
  refine ⟨?_, fun box after => harranged.settled, hlast, ?_⟩
  · intro placed hmem e
    have horigin : l.origin = settings.origin := by
      obtain ⟨columns, -, rfl⟩ := build_eq_ok.1 hbuild
      rfl
    rw [← horigin]
    have hwithin := (LayoutBox.within_outline hsettings.gap).1 l.root l.origin 0 hspacious placed hmem e
    cases e <;> exact hwithin
  · intro id hid other hother hne
    have hbox : ∀ {id : ClaimId} {last : PlacedBox K}, (l.outline.boxesOf id).getLast? = some last →
        last ∈ l.outline ∧ last.kind = .claim id := by
      intro id last hlast
      simpa using List.mem_filter.1 (List.mem_of_getLast? hlast)
    obtain ⟨claim, first, -, hfirst, hsize, hclaim⟩ := hlast id hid
    obtain ⟨claim', second, -, hsecond, hsize', hclaim'⟩ := hlast other hother
    obtain ⟨hmem, hkind⟩ := hbox hfirst
    obtain ⟨hmem', hkind'⟩ := hbox hsecond
    refine ⟨first.rect, second.rect, ?_, ?_, ?_⟩
    · rw [hclaim, Option.bind_some, Claim.anchorRect?_moveTo hsize]
    · rw [hclaim', Option.bind_some, Claim.anchorRect?_moveTo hsize']
    · apply harranged.not_intersects_of_leaf hmem hmem'
      · rintro rfl
        exact hne (BoxKind.claim.inj (hkind.symm.trans hkind'))
      · simp [hkind]
      · simp [hkind']

theorem boxes_nested_apart_of_shared : ∃ (g : Graph ℚ) (l : Layout ℚ),
    g.Reachable ∧ (LayoutSettings.standard : LayoutSettings ℚ).Roomy ∧ build g .standard = .ok l ∧
      ∃ r s, ((l.apply g).claim? ⟨1⟩).bind Claim.anchorRect? = some r ∧
        ((l.apply g).claim? ⟨2⟩).bind Claim.anchorRect? = some s ∧ r.intersects s = false := by
  have hshared := exists_shared_source (α := ℚ) .standard ⟨100, 30⟩
  obtain ⟨g, l, hg, hbuild, hsize, hfirst, -, hthird⟩ := hshared
  have hsettings : (LayoutSettings.standard : LayoutSettings ℚ).Roomy := LayoutSettings.roomy_standard
  have hclaims : ∀ id claim size, g.claim? id = some claim → claim.placement.size? = some size →
      0 ≤ size.width ∧ 0 ≤ size.height := by
    intro id claim size hclaim hclaimSize
    obtain rfl := Option.some.inj ((hsize id claim hclaim).symm.trans hclaimSize)
    norm_num
  obtain ⟨-, -, -, hapart⟩ := boxes_nested_apart hg hsettings hclaims hbuild
  have htraces := traces_root hg.wellFormed hbuild
  exact ⟨g, l, hg, hsettings, hbuild,
    hapart ⟨1⟩ (htraces.mem_iff.2 ⟨_, hfirst⟩) ⟨2⟩ (htraces.mem_iff.2 ⟨_, hthird⟩) (by decide)⟩

end Layout

end ArgumentDiagram
