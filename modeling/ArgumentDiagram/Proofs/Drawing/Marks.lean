import ArgumentDiagram.Drawing.Scene
import ArgumentDiagram.Proofs.Graph.Points
import Mathlib.Data.List.Perm.Basic

/-!
What a frame shows of each entity. If all that is selected is live, and nothing twice, then every relation,
every claim and every selected claim shows up just once, however it looks.
-/

namespace ArgumentDiagram

/-- What an element is, whatever its colours, fonts and line widths. -/
inductive Mark (α : Type) where
  | path
  | fill (rect : Rect α)
  | border (rect : Rect α)
  | line (text : String)

def Element.mark {α : Type} : Element α → Mark α
  | .fillRect rect _ => .fill rect
  | .strokeRect rect _ _ => .border rect
  | .strokePath _ _ _ => .path
  | .fillPath _ _ => .path
  | .text content _ _ _ => .line content

/-- A line, and the sign of support or attack at its end. -/
def Relation.marks {α : Type} (r : Relation) : List (Mark α) :=
  match r.kind with
  | none => [.path]
  | some _ => [.path, .path]

namespace Claim

variable {α : Type} [Scalar α]

/-- A filled box, its border and the lines of text. -/
def marks (scale : α) (claim : Claim α) : List (Mark α) :=
  .fill (claim.rect.scaled scale) :: .border (claim.rect.scaled scale) :: claim.text.map .line

/-- The outline of a selected claim. -/
def selectionMark (scale : α) (claim : Claim α) : Mark α :=
  .border ((claim.rect.inflate 2.0).scaled scale)

end Claim

/-- Live claims that are looked up are all found, each under its own handle. -/
theorem Graph.WellFormed.ids_filterMap_claim? {α : Type} {g : Graph α} (h : g.WellFormed) {ids : List ClaimId}
    (hlive : ∀ id ∈ ids, g.contains (.claim id)) : (ids.filterMap g.claim?).map (·.id) = ids := by
  induction ids with
  | nil => rfl
  | cons id rest ih =>
      obtain ⟨hfirst, hrest⟩ := List.forall_mem_cons.1 hlive
      obtain ⟨claim, hclaim⟩ := contains_claim_iff.1 hfirst
      rw [List.filterMap_cons_some hclaim, List.map_cons, ih hrest, h.claim_key hclaim]

namespace Scene

variable {α : Type} [Scalar α] {g : Graph α} {s : Scene α} {selection : List ClaimId}

omit [Scalar α] in
theorem paintOrder_of_live (hlive : ∀ id ∈ selection, g.contains (.claim id)) :
    paintOrder g selection = g.claimIds.filter (!selection.contains ·) ++ selection := by
  have hkept : (selection.filter fun id => (g.claim? id).isSome) = selection := by
    refine List.filter_eq_self.2 fun id hmem => ?_
    obtain ⟨claim, hclaim⟩ := Graph.contains_claim_iff.1 (hlive id hmem)
    rw [hclaim, Option.isSome_some]
  rw [paintOrder, hkept]

omit [Scalar α] in
theorem paintOrder_perm (hnodup : selection.Nodup) (hlive : ∀ id ∈ selection, g.contains (.claim id)) :
    (paintOrder g selection).Perm g.claimIds := by
  rw [paintOrder_of_live hlive]
  have hselected : (g.claimIds.filter (selection.contains ·)).Perm selection := by
    refine (List.perm_ext_iff_of_nodup (g.claims.nodup_keys.filter _) hnodup).2 fun id => ?_
    rw [List.mem_filter, List.contains_iff_mem]
    exact ⟨And.right, fun hmem => ⟨Graph.mem_claimIds_iff.2 (hlive id hmem), hmem⟩⟩
  calc
    (g.claimIds.filter (!selection.contains ·) ++ selection).Perm
        (g.claimIds.filter (!selection.contains ·) ++ g.claimIds.filter (selection.contains ·)) :=
      hselected.symm.append_left _
    List.Perm _ (g.claimIds.filter (selection.contains ·) ++ g.claimIds.filter (!selection.contains ·)) :=
      List.perm_append_comm
    List.Perm _ g.claimIds := List.filter_append_perm ..

/-! ### The marks of each part -/

theorem marks_arrow (style : Style α) (r : Relation) (color : String) (start tip : Point α) :
    (arrow style r.kind color start tip).map Element.mark = r.marks := by
  rw [arrow.eq_def, Relation.marks]
  cases r.kind with
  | none => rfl
  | some kind => cases kind <;> rfl

/-- No relation is skipped, as both of its ends are there. -/
theorem marks_relationElements (h : s.graph.WellFormed) :
    s.relationElements.map Element.mark = s.graph.relations.values.flatMap Relation.marks := by
  rw [relationElements, List.map_flatMap]
  refine List.flatMap_congr fun r hmem => ?_
  obtain ⟨id, hr⟩ := Table.mem_values_iff.1 hmem
  obtain ⟨source, hsource⟩ := Option.isSome_iff_exists.1
    ((h.isSome_boxOf (.claim r.source)).trans (h.source_live hr))
  obtain ⟨target, htarget⟩ := Option.isSome_iff_exists.1 ((h.isSome_boxOf r.target).trans (h.target_live hr))
  have hends : ∃ start tip, s.ends? r = some (start, tip) := by
    refine ⟨(target.attachment source).scaled s.style.scale, (source.attachment target).scaled s.style.scale, ?_⟩
    rw [ends?, hsource, htarget]
    rfl
  obtain ⟨start, tip, hends⟩ := hends
  rw [hends]
  exact marks_arrow ..

theorem marks_textElements (style : Style α) (claim : Claim α) :
    (textElements style claim).map Element.mark = claim.text.map .line := by
  rw [textElements, List.map_map]
  conv_rhs => rw [← List.zipIdx_map_fst 0 claim.text, List.map_map]
  rfl

theorem marks_claimElements (style : Style α) (claim : Claim α) (palette : ScopePalette) :
    (claimElements style claim palette).1.map Element.mark = claim.marks style.scale := by
  rw [Claim.marks, ← marks_textElements style]
  rfl

/-- Colours are all that a palette decides. -/
theorem marks_claimsElements (style : Style α) (claims : List (Claim α)) (palette : ScopePalette) :
    (claimsElements style claims palette).1.map Element.mark = claims.flatMap (Claim.marks style.scale) := by
  induction claims generalizing palette with
  | nil => rfl
  | cons claim rest ih =>
      rw [claimsElements]
      dsimp only
      rw [List.map_append, marks_claimElements, ih, List.flatMap_cons]

theorem marks_selectionElements (s : Scene α) : s.selectionElements.map Element.mark =
    (s.selection.filterMap s.graph.claim?).map (Claim.selectionMark s.style.scale) := by
  rw [selectionElements, List.map_map]
  rfl

/-- One element for each box, but none unless the style asks for them. -/
theorem length_outlineElements (s : Scene α) : s.outlineElements.length =
    if s.style.debugLayout then (s.outline.getD []).length else 0 := by
  rw [outlineElements]
  split
  · rw [List.length_map]
  · rfl

variable {id : ClaimId} {claim : Claim α} {style : Style α} {claims : List (Claim α)} {palette : ScopePalette}
  {content color : String} {start : Point α} {font : Font α}

omit [Scalar α] in
/-- Every live claim is painted. -/
theorem mem_paintOrder (selection : List ClaimId) (hclaim : g.claim? id = some claim) :
    id ∈ paintOrder g selection := by
  by_cases hmem : id ∈ selection
  · exact List.mem_append_right _ (List.mem_filter.2 ⟨hmem, Option.isSome_of_eq_some hclaim⟩)
  · refine List.mem_append_left _ (List.mem_filter.2 ⟨Table.mem_keys_of_get? hclaim, ?_⟩)
    simpa using hmem

theorem infix_claimsElements (style : Style α) (hmem : claim ∈ claims) (palette : ScopePalette) :
    ∃ before, (claimElements style claim before).1 <:+: (claimsElements style claims palette).1 := by
  induction claims generalizing palette with
  | nil => cases hmem
  | cons other rest ih =>
      rcases List.mem_cons.1 hmem with rfl | hmem
      · exact ⟨palette, (List.prefix_append ..).isInfix⟩
      · obtain ⟨before, hinfix⟩ := ih hmem (claimElements style other palette).2
        exact ⟨before, hinfix.trans (List.suffix_append ..).isInfix⟩

/-- What is painted of a live claim stands together in a frame: its box, the border and the lines. -/
theorem exists_infix_elements (s : Scene α) (palette : ScopePalette) (hclaim : s.graph.claim? id = some claim) :
    ∃ border, .fillRect (claim.rect.scaled s.style.scale) (s.style.looks.background claim) ::
      .strokeRect (claim.rect.scaled s.style.scale) border s.style.scale :: textElements s.style claim
        <:+: (s.elements palette).1 := by
  have hpainted : claim ∈ (paintOrder s.graph s.selection).filterMap s.graph.claim? :=
    List.mem_filterMap.2 ⟨id, mem_paintOrder s.selection hclaim, hclaim⟩
  obtain ⟨before, hinfix⟩ := infix_claimsElements s.style hpainted palette
  refine ⟨(s.style.looks.border claim before).1, hinfix.trans ?_⟩
  rw [elements]
  dsimp only
  rw [List.append_assoc, List.append_assoc]
  exact (List.prefix_append ..).isInfix.trans (List.suffix_append ..).isInfix

theorem exists_of_mem_claimsElements {e : Element α} (h : e ∈ (claimsElements style claims palette).1) :
    ∃ claim ∈ claims, ∃ before, e ∈ (claimElements style claim before).1 := by
  induction claims generalizing palette with
  | nil => cases h
  | cons first rest ih =>
      rcases List.mem_append.1 h with h | h
      · exact ⟨first, List.mem_cons_self, palette, h⟩
      · obtain ⟨claim, hmem, hpainted⟩ := ih h
        exact ⟨claim, List.mem_cons_of_mem _ hmem, hpainted⟩

/-- A line of a claim has the place that its number gives it, and the looks of the claim. -/
theorem mem_textElements : .text content start font color ∈ textElements style claim ↔
    ∃ line, claim.text[line]? = some content ∧ start = baseline style claim line ∧ font = fontOf style claim ∧
      color = style.looks.fontColor claim := by
  simp only [textElements, List.mem_map, Prod.exists, List.mem_zipIdx_iff_getElem?, Element.text.injEq]
  constructor
  · rintro ⟨_, line, hline, rfl, rfl, rfl, rfl⟩
    exact ⟨line, hline, rfl, rfl, rfl⟩
  · rintro ⟨line, hline, rfl, rfl, rfl⟩
    exact ⟨content, line, hline, rfl, rfl, rfl, rfl⟩

/-- Line by line, a claim's text and the elements that show it. -/
theorem forall₂_textElements {holds : String → Element α → Prop}
    (h : ∀ line content, claim.text[line]? = some content →
      holds content (.text content (baseline style claim line) (fontOf style claim) (style.looks.fontColor claim))) :
    List.Forall₂ holds claim.text (textElements style claim) := by
  refine List.forall₂_iff_get.2 ⟨by simp [textElements], fun line hline _ => ?_⟩
  simpa [textElements] using h line _ (List.getElem?_eq_getElem hline)

/-- Whatever text a frame shows is a line of a live claim. -/
theorem exists_claim_of_text (s : Scene α) (h : .text content start font color ∈ (s.elements palette).1) :
    ∃ id claim, s.graph.claim? id = some claim ∧ .text content start font color ∈ textElements s.style claim := by
  rw [elements] at h
  simp only [List.mem_append] at h
  rcases h with ((hrelation | hpainted) | hselected) | hbox
  · obtain ⟨r, -, hr⟩ := List.mem_flatMap.1 hrelation
    split at hr
    · cases hr
    · have hmark := List.mem_map_of_mem (f := Element.mark) hr
      rw [marks_arrow, Relation.marks] at hmark
      split at hmark <;> simp [Element.mark] at hmark
  · obtain ⟨claim, hmem, before, hclaim⟩ := exists_of_mem_claimsElements hpainted
    obtain ⟨id, -, hlive⟩ := List.mem_filterMap.1 hmem
    refine ⟨id, claim, hlive, ?_⟩
    simpa [claimElements] using hclaim
  · simp [selectionElements] at hselected
  · rw [outlineElements] at hbox
    split at hbox
    · obtain ⟨box, -, hbox⟩ := List.mem_map.1 hbox
      rw [outlineElement] at hbox
      split at hbox <;> cases hbox
    · cases hbox

end Scene

end ArgumentDiagram
