import ArgumentDiagram.Proofs.Layout.Packing
import Mathlib.Data.List.Chain
import Mathlib.Data.List.TakeWhile

/-!
Outlines of boxes in exact arithmetic. The boxes that a box holds are those that follow it in the outline
for as long as they are nested deeper. A box encloses these and is apart from all that come after them, and
containers keep their gaps between the boxes that they hold themselves.
-/

namespace ArgumentDiagram

namespace PlacedBox

variable {α : Type}

/-- The boxes that a box of an outline holds, at any depth, given those after it. -/
def inside (box : PlacedBox α) (after : Outline α) : Outline α :=
  after.takeWhile fun other => box.depth < other.depth

/-- The boxes that come after those that it holds. -/
def outside (box : PlacedBox α) (after : Outline α) : Outline α :=
  after.dropWhile fun other => box.depth < other.depth

/-- The boxes that it holds itself. -/
def children (box : PlacedBox α) (after : Outline α) : Outline α :=
  (box.inside after).filter fun other => other.depth = box.depth + 1

variable {box : PlacedBox α} {first second : Outline α}

theorem inside_append_outside (box : PlacedBox α) (after : Outline α) :
    box.inside after ++ box.outside after = after := List.takeWhile_append_dropWhile

theorem inside_append (h : ∀ next ∈ second.head?, next.depth ≤ box.depth) :
    box.inside (first ++ second) = box.inside first := by
  induction first with
  | nil =>
      cases second with
      | nil => rfl
      | cons next rest =>
          have hnext : next.depth ≤ box.depth := h next rfl
          simp [inside, hnext]
  | cons other rest ih =>
      simp only [inside, List.cons_append, List.takeWhile_cons] at ih ⊢
      rw [ih]

theorem outside_append (h : ∀ next ∈ second.head?, next.depth ≤ box.depth) :
    box.outside (first ++ second) = box.outside first ++ second := by
  induction first with
  | nil =>
      cases second with
      | nil => rfl
      | cons next rest =>
          have hnext : next.depth ≤ box.depth := h next rfl
          simp [outside, hnext]
  | cons other rest ih =>
      simp only [outside, List.cons_append, List.dropWhile_cons] at ih ⊢
      split
      · exact ih
      · rfl

end PlacedBox

namespace LayoutBox

variable {α : Type} [Scalar α]

/-- The first box of an outline. -/
def placed (box : LayoutBox α) (corner : Point α) (depth : Nat) : PlacedBox α :=
  ⟨box.kind, ⟨corner.x, corner.y, box.size.width, box.size.height⟩, depth⟩

theorem depth_le_of_mem_outline :
    (∀ (box : LayoutBox α) (corner : Point α) (depth : Nat),
      ∀ other ∈ box.outline corner depth, depth ≤ other.depth) ∧
    ∀ (d : Direction) (gap : α) (outer : Size α) (corner : Point α) (depth : Nat)
      (children : List (LayoutBox α)) (along : α),
      ∀ other ∈ outlineChildren d gap outer corner depth children along, depth ≤ other.depth := by
  apply outline.mutual_induct
  · intro corner depth d gap children size ih other hmem
    rw [outline, List.mem_cons] at hmem
    rcases hmem with rfl | hmem
    · exact Nat.le_refl _
    · have := ih other hmem
      omega
  · intro corner depth id size other hmem
    rw [outline, List.mem_singleton] at hmem
    rw [hmem]
  · intro corner depth size other hmem
    rw [outline, List.mem_singleton] at hmem
    rw [hmem]
  · intro d gap outer corner depth along other hmem
    simp [outlineChildren] at hmem
  · intro d gap outer corner depth child rest along ihchild ihrest other hmem
    rw [outlineChildren, List.mem_append] at hmem
    rcases hmem with hmem | hmem
    · exact ihchild other hmem
    · exact ihrest other hmem

/-- An outline starts with the box itself; all others are nested deeper. -/
theorem outline_eq_cons (box : LayoutBox α) (corner : Point α) (depth : Nat) :
    ∃ inner, box.outline corner depth = box.placed corner depth :: inner ∧
      ∀ other ∈ inner, depth < other.depth := by
  cases box with
  | container d gap children =>
      refine ⟨_, by rw [outline]; rfl, fun other hmem => ?_⟩
      exact depth_le_of_mem_outline.2 _ _ _ _ _ _ _ other hmem
  | claim id size => exact ⟨[], by rw [outline]; rfl, by simp⟩
  | spacer size => exact ⟨[], by rw [outline]; rfl, by simp⟩

theorem depth_head_outlineChildren (d : Direction) (gap : α) (outer : Size α) (corner : Point α)
    (depth : Nat) (children : List (LayoutBox α)) (along : α) :
    ∀ next ∈ (outlineChildren d gap outer corner depth children along).head?, next.depth = depth := by
  cases children with
  | nil => simp [outlineChildren]
  | cons child rest =>
      obtain ⟨inner, houtline, -⟩ :=
        child.outline_eq_cons (childCorner d corner outer child.size along) depth
      rw [outlineChildren, houtline]
      simp [placed]

/-- The boxes that a container holds itself are its children in their order. -/
theorem filter_outlineChildren_cons (d : Direction) (gap : α) (outer : Size α) (corner : Point α)
    (depth : Nat) (child : LayoutBox α) (rest : List (LayoutBox α)) (along : α) :
    (outlineChildren d gap outer corner depth (child :: rest) along).filter (·.depth = depth) =
      child.placed (childCorner d corner outer child.size along) depth ::
        (outlineChildren d gap outer corner depth rest (along + (length d child.size + gap))).filter
          (·.depth = depth) := by
  obtain ⟨inner, houtline, hdeeper⟩ :=
    child.outline_eq_cons (childCorner d corner outer child.size along) depth
  have hinner : inner.filter (·.depth = depth) = [] := by
    rw [List.filter_eq_nil_iff]
    intro other hmem
    have := hdeeper other hmem
    simp
    omega
  rw [outlineChildren, List.filter_append, houtline, List.filter_cons_of_pos (by simp [placed]), hinner]
  rfl

end LayoutBox

variable {K : Type} [Field K] [LinearOrder K] [FloorSemiring K] [Angles K] {gaps : Direction → K}

/-- How a box stands to the boxes after it. -/
structure PlacedBox.Settled (gaps : Direction → K) (box : PlacedBox K) (after : Outline K) : Prop where
  encloses : ∀ inner ∈ box.inside after, box.rect.Encloses inner.rect
  apart : ∀ other ∈ box.outside after, box.rect.intersects other.rect = false
  spaced : ∀ d, box.kind = .container d → (box.children after).IsChain fun first second =>
    second.rect.start d = first.rect.stop d + gaps d
  /-- Only containers hold boxes. -/
  leaf : (∀ d, box.kind ≠ .container d) → box.inside after = []

/-- Every box of an outline is settled among those after it. -/
inductive Arranged (gaps : Direction → K) : Outline K → Prop
  | nil : Arranged gaps []
  | cons {box : PlacedBox K} {after : Outline K} :
      box.Settled gaps after → Arranged gaps after → Arranged gaps (box :: after)

namespace Arranged

theorem settled {outline : Outline K} (h : Arranged gaps outline) {box : PlacedBox K}
    {after : Outline K} (hsuffix : box :: after <:+ outline) : box.Settled gaps after := by
  induction h with
  | nil => simp at hsuffix
  | cons hfirst _ ih =>
      rcases List.suffix_cons_iff.1 hsuffix with heq | hsuffix
      · obtain ⟨rfl, rfl⟩ := List.cons.inj heq
        exact hfirst
      · exact ih hsuffix

/-- Outlines side by side. -/
theorem append {first second : Outline K} (h : Arranged gaps first) (h' : Arranged gaps second)
    (hdepth : ∀ box ∈ first, ∀ next ∈ second.head?, next.depth ≤ box.depth)
    (hapart : ∀ box ∈ first, ∀ other ∈ second, box.rect.intersects other.rect = false) :
    Arranged gaps (first ++ second) := by
  induction h with
  | nil => exact h'
  | @cons box after hsettled _ ih =>
      have hinside : box.inside (after ++ second) = box.inside after :=
        PlacedBox.inside_append (hdepth box List.mem_cons_self)
      have houtside : box.outside (after ++ second) = box.outside after ++ second :=
        PlacedBox.outside_append (hdepth box List.mem_cons_self)
      rw [List.cons_append]
      apply Arranged.cons
      · refine ⟨?_, ?_, ?_, ?_⟩
        · rw [hinside]
          exact hsettled.encloses
        · intro other hmem
          rw [houtside, List.mem_append] at hmem
          rcases hmem with hmem | hmem
          · exact hsettled.apart other hmem
          · exact hapart box List.mem_cons_self other hmem
        · rw [PlacedBox.children, hinside]
          exact hsettled.spaced
        · rw [hinside]
          exact hsettled.leaf
      · exact ih (fun other hmem => hdepth other (List.mem_cons_of_mem _ hmem))
          fun other hmem => hapart other (List.mem_cons_of_mem _ hmem)

theorem not_intersects_of_leaf {outline : Outline K}
    (h : Arranged gaps outline) {first second : PlacedBox K} (hfirst : first ∈ outline)
    (hsecond : second ∈ outline) (hne : first ≠ second) (hleaf : ∀ d, first.kind ≠ .container d)
    (hleaf' : ∀ d, second.kind ≠ .container d) : first.rect.intersects second.rect = false := by
  induction h with
  | nil => simp at hfirst
  | @cons box after hsettled _ ih =>
      -- a leaf holds nothing, so all that comes after it is apart from it
      have hapart : (∀ d, box.kind ≠ .container d) →
          ∀ other ∈ after, box.rect.intersects other.rect = false := by
        intro hkind other hmem
        apply hsettled.apart
        have hsplit := box.inside_append_outside after
        rw [hsettled.leaf hkind, List.nil_append] at hsplit
        rw [hsplit]
        exact hmem
      rcases List.mem_cons.1 hfirst with rfl | hmem
      · rcases List.mem_cons.1 hsecond with rfl | hmem'
        · exact absurd rfl hne
        · exact hapart hleaf second hmem'
      · rcases List.mem_cons.1 hsecond with rfl | hmem'
        · rw [Rect.intersects_comm]
          exact hapart hleaf' first hmem
        · exact ih hmem hmem'

end Arranged

namespace LayoutBox

/-- Each child of a container starts one gap after the one before it. -/
theorem spaced_outlineChildren (d : Direction) (outer : Size K) (corner : Point K) (depth : Nat)
    (children : List (LayoutBox K)) (along : K) :
    ((outlineChildren d (gaps d) outer corner depth children along).filter (·.depth = depth)).IsChain
      (fun first second => second.rect.start d = first.rect.stop d + gaps d) ∧
    ∀ first ∈ ((outlineChildren d (gaps d) outer corner depth children along).filter
      (·.depth = depth)).head?, first.rect.start d = corner.along d + along := by
  induction children generalizing along with
  | nil => simp [outlineChildren]
  | cons child rest ih =>
      obtain ⟨hchain, hhead⟩ := ih (along + (length d child.size + gaps d))
      have hstart : (child.placed (childCorner d corner outer child.size along) depth).rect.start d =
          corner.along d + along := by
        rw [← length_childCorner d corner outer child.size along]
        cases d <;> rfl
      have hstop : (child.placed (childCorner d corner outer child.size along) depth).rect.stop d =
          corner.along d + along + length d child.size := by
        rw [← length_childCorner d corner outer child.size along]
        cases d <;> rfl
      rw [filter_outlineChildren_cons, List.isChain_cons]
      refine ⟨⟨fun next hnext => ?_, hchain⟩, fun first hfirst => ?_⟩
      · rw [hhead next hnext, hstop]
        ring
      · obtain rfl := Option.some.inj hfirst
        exact hstart

variable [IsStrictOrderedRing K]

/-- A container holds its children and what they hold, and nothing comes after these. -/
theorem settled_container {d : Direction} {children : List (LayoutBox K)} (hgaps : ∀ d, 0 ≤ gaps d)
    (h : Spacious gaps (.container d (gaps d) children)) (corner : Point K) (depth : Nat) :
    (placed (.container d (gaps d) children) corner depth).Settled gaps
      (outlineChildren d (gaps d) (container d (gaps d) children).size corner (depth + 1) children 0.0) := by
  generalize hkids : outlineChildren d (gaps d) (container d (gaps d) children).size corner (depth + 1)
    children 0.0 = kids
  have houtline : (container d (gaps d) children).outline corner depth =
      placed (.container d (gaps d) children) corner depth :: kids := by
    rw [outline, hkids]
    rfl
  have hdeeper : ∀ other ∈ kids, depth < other.depth := by
    intro other hmem
    rw [← hkids] at hmem
    exact depth_le_of_mem_outline.2 _ _ _ _ _ _ _ other hmem
  have hinside : (placed (.container d (gaps d) children) corner depth).inside kids = kids := by
    rw [PlacedBox.inside, List.takeWhile_eq_self_iff]
    exact fun other hmem => decide_eq_true (hdeeper other hmem)
  have houtside : (placed (.container d (gaps d) children) corner depth).outside kids = [] := by
    rw [PlacedBox.outside, List.dropWhile_eq_nil_iff]
    exact fun other hmem => decide_eq_true (hdeeper other hmem)
  refine ⟨?_, ?_, ?_, ?_⟩
  · intro inner hmem e
    rw [hinside] at hmem
    have hwithin := (within_outline hgaps).1 _ corner depth h inner (by simp [houtline, hmem]) e
    cases e <;> exact hwithin
  · simp [houtside]
  · intro e hkind
    obtain rfl : d = e := by simpa [placed, kind] using hkind
    rw [PlacedBox.children, hinside, ← hkids]
    exact (spaced_outlineChildren ..).1
  · intro hkind
    exact absurd rfl (hkind d)

theorem arranged_outline (hgaps : ∀ d, 0 ≤ gaps d) :
    (∀ (box : LayoutBox K) (corner : Point K) (depth : Nat), box.Spacious gaps →
      Arranged gaps (box.outline corner depth)) ∧
    ∀ (d : Direction) (gap : K) (outer : Size K) (corner : Point K) (depth : Nat)
      (children : List (LayoutBox K)) (along : K), 0 ≤ gap → (∀ child ∈ children, child.Spacious gaps) →
      (∀ child ∈ children, length d.across child.size ≤ length d.across outer) →
      Arranged gaps (outlineChildren d gap outer corner depth children along) := by
  apply outline.mutual_induct
  · intro corner depth d gap children size ih hmade
    cases hmade with
    | container hchildren =>
        rw [outline]
        apply Arranged.cons
        · exact settled_container hgaps (.container hchildren) corner depth
        · apply ih (hgaps d) hchildren
          intro child hchild
          simp only [size, size_container]
          exact (across_packedSize ..).2 _ (List.mem_map_of_mem hchild)
  · intro corner depth id size _
    rw [outline]
    refine .cons ⟨?_, ?_, ?_, ?_⟩ .nil <;> simp [PlacedBox.inside, PlacedBox.outside, PlacedBox.children]
  · intro corner depth size _
    rw [outline]
    refine .cons ⟨?_, ?_, ?_, ?_⟩ .nil <;> simp [PlacedBox.inside, PlacedBox.outside, PlacedBox.children]
  · intro d gap outer corner depth along _ _ _
    rw [outlineChildren]
    exact .nil
  · intro d gap outer corner depth child rest along ihchild ihrest hgap hmade hfits
    have hrest : ∀ other ∈ rest, other.Spacious gaps := fun other hother =>
      hmade other (List.mem_cons_of_mem _ hother)
    have hfitsRest : ∀ other ∈ rest, length d.across other.size ≤ length d.across outer :=
      fun other hother => hfits other (List.mem_cons_of_mem _ hother)
    have hchild := hmade child List.mem_cons_self
    rw [outlineChildren]
    refine (ihchild hchild).append (ihrest hgap hrest hfitsRest) ?_ ?_
    · intro box hbox next hnext
      rw [depth_head_outlineChildren d gap outer corner depth rest _ next hnext]
      exact depth_le_of_mem_outline.1 _ _ _ box hbox
    · intro box hbox other hother
      -- the first child ends where the gap before the others starts
      obtain ⟨-, hstop⟩ := (within_outline hgaps).1 _ _ _ hchild box hbox d
      obtain ⟨⟨hstart, -⟩, -⟩ := (within_outline hgaps).2 _ _ _ _ _ _ _ hgap hrest hfitsRest other hother
      rw [length_childCorner] at hstop
      apply Rect.not_intersects_of_stop_le d
      linarith

end LayoutBox

end ArgumentDiagram
