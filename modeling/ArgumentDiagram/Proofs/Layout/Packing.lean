import ArgumentDiagram.Proofs.Geometry.Hull
import ArgumentDiagram.Layout.Outline
import Mathlib.Algebra.Order.BigOperators.Group.List
import Mathlib.Tactic.Ring

/-!
Rows and columns in exact arithmetic, one direction at a time. Along its direction a container is as long as
its boxes with the gaps between them, across it at least as long as each of them. So what it places stays
within it.
-/

namespace ArgumentDiagram

/-- The direction at a right angle. -/
def Direction.across : Direction → Direction
  | .horizontal => .vertical
  | .vertical => .horizontal

theorem Direction.eq_or_eq_across (d e : Direction) : d = e ∨ e = d.across := by
  cases d <;> cases e <;> simp [across]

section

variable {α : Type}

def Point.along (p : Point α) : Direction → α
  | .horizontal => p.x
  | .vertical => p.y

/-- The left side of a rectangle, or its top. -/
def Rect.start (r : Rect α) : Direction → α
  | .horizontal => r.x
  | .vertical => r.y

/-- The right side of a rectangle, or its bottom. -/
def Rect.stop [Scalar α] (r : Rect α) : Direction → α
  | .horizontal => r.right
  | .vertical => r.bottom

/-- Boxes whose containers keep certain gaps and whose leaves are as they should be. -/
inductive LayoutBox.MadeOf (gaps : Direction → α) (leaf : BoxKind → Size α → Prop) : LayoutBox α → Prop
  | container {d : Direction} {children : List (LayoutBox α)} :
      (∀ child ∈ children, MadeOf gaps leaf child) → MadeOf gaps leaf (.container d (gaps d) children)
  | claim {id : ClaimId} {size : Size α} : leaf (.claim id) size → MadeOf gaps leaf (.claim id size)
  | spacer {size : Size α} : leaf .spacer size → MadeOf gaps leaf (.spacer size)

theorem LayoutBox.MadeOf.imp {gaps : Direction → α} {leaf leaf' : BoxKind → Size α → Prop}
    {box : LayoutBox α} (h : box.MadeOf gaps leaf)
    (himp : ∀ kind size, leaf kind size → leaf' kind size) : box.MadeOf gaps leaf' := by
  induction h with
  | container _ ih => exact .container ih
  | claim hleaf => exact .claim (himp _ _ hleaf)
  | spacer hleaf => exact .spacer (himp _ _ hleaf)

end

/-- The largest of some numbers is at least the start and each of them. -/
theorem le_foldl_max {β K : Type} [LinearOrder K] (f : β → K) (init : K) (items : List β) :
    init ≤ items.foldl (fun most b => max most (f b)) init ∧
    ∀ b ∈ items, f b ≤ items.foldl (fun most b => max most (f b)) init := by
  have hgreatest := (isGreatest_foldl_max f init items).2
  exact ⟨hgreatest (.inl rfl), fun b hmem => hgreatest (.inr ⟨b, hmem, rfl⟩)⟩

variable {K : Type} [Field K]

theorem foldl_add_eq (f : Size K → K) (init : K) (sizes : List (Size K)) :
    sizes.foldl (fun sum s => sum + f s) init = init + (sizes.map f).sum := by
  induction sizes generalizing init with
  | nil => simp
  | cons size rest ih => rw [List.foldl_cons, ih, List.map_cons, List.sum_cons, add_assoc]

variable [LinearOrder K] [FloorSemiring K] [Angles K]

def Rect.Encloses (r s : Rect K) : Prop := ∀ d, r.start d ≤ s.start d ∧ s.stop d ≤ r.stop d

/-- A rectangle that, in a direction, lies between two positions. -/
def Rect.Within (r : Rect K) (d : Direction) (low high : K) : Prop := low ≤ r.start d ∧ r.stop d ≤ high

theorem Rect.not_intersects_of_stop_le {r s : Rect K} (d : Direction) (h : r.stop d ≤ s.start d) :
    r.intersects s = false := by
  cases d with
  | horizontal =>
      have : ¬s.x < r.right := not_lt.2 h
      simp [Rect.intersects, Scalar.lt, this]
  | vertical =>
      have : ¬s.y < r.bottom := not_lt.2 h
      simp [Rect.intersects, Scalar.lt, this]

theorem Rect.intersects_comm (r s : Rect K) : r.intersects s = s.intersects r := by
  simp only [Rect.intersects, Bool.and_comm, Bool.and_left_comm, Bool.and_assoc]

namespace LayoutBox

theorem length_childCorner (d : Direction) (corner : Point K) (outer inner : Size K) (along : K) :
    (childCorner d corner outer inner along).along d = corner.along d + along := by
  cases d <;> rfl

variable [IsStrictOrderedRing K] {d : Direction} {gap : K} {sizes : List (Size K)}

theorem across_childCorner (d : Direction) (corner : Point K) (outer inner : Size K) (along : K) :
    (childCorner d corner outer inner along).along d.across =
      corner.along d.across + (length d.across outer - length d.across inner) / 2 := by
  rw [← exact_two]
  cases d <;> rfl

/-- Along a container: its boxes, and a gap after each but the last. -/
theorem length_packedSize (d : Direction) (gap : K) (sizes : List (Size K)) :
    length d (packedSize d gap sizes) =
      (sizes.map (length d)).sum + ((sizes.length - 1 : ℕ) : K) * gap := by
  cases d with
  | horizontal =>
      simp only [length, packedSize, foldl_add_eq, exact_zero, zero_add]
      rfl
  | vertical =>
      simp only [length, packedSize, foldl_add_eq, exact_zero, zero_add]
      rfl

theorem length_packedSize_cons (size : Size K) {rest : List (Size K)} (hrest : rest ≠ []) :
    length d (packedSize d gap (size :: rest)) =
      length d size + gap + length d (packedSize d gap rest) := by
  obtain ⟨next, others, rfl⟩ := List.exists_cons_of_ne_nil hrest
  simp only [length_packedSize, List.map_cons, List.sum_cons, List.length_cons, Nat.add_sub_cancel]
  push_cast
  ring

/-- Across a container: at least as much as each of its boxes. -/
theorem across_packedSize (d : Direction) (gap : K) (sizes : List (Size K)) :
    0 ≤ length d.across (packedSize d gap sizes) ∧
    ∀ size ∈ sizes, length d.across size ≤ length d.across (packedSize d gap sizes) := by
  have hwidth := le_foldl_max Size.width (0.0 : K) sizes
  have hheight := le_foldl_max Size.height (0.0 : K) sizes
  rw [exact_zero] at hwidth hheight
  cases d with
  | horizontal =>
      simp only [Direction.across, length, packedSize, exact_zero]
      exact hheight
  | vertical =>
      simp only [Direction.across, length, packedSize, exact_zero]
      exact hwidth

theorem length_packedSize_nonneg (hgap : 0 ≤ gap) (hsizes : ∀ size ∈ sizes, 0 ≤ length d size) :
    0 ≤ length d (packedSize d gap sizes) := by
  rw [length_packedSize]
  have hsum : 0 ≤ (sizes.map (length d)).sum := by
    apply List.sum_nonneg
    intro x hx
    obtain ⟨size, hmem, rfl⟩ := List.mem_map.1 hx
    exact hsizes size hmem
  exact add_nonneg hsum (mul_nonneg (Nat.cast_nonneg _) hgap)

theorem length_le_packedSize_cons {size : Size K} {rest : List (Size K)} (hgap : 0 ≤ gap)
    (hrest : ∀ s ∈ rest, 0 ≤ length d s) :
    length d size ≤ length d (packedSize d gap (size :: rest)) := by
  rcases eq_or_ne rest [] with rfl | hne
  · simp [length_packedSize]
  · rw [length_packedSize_cons size hne]
    have := length_packedSize_nonneg hgap hrest
    linarith

/-! ### Boxes within boxes -/

/-- Containers keep certain gaps, and no leaf has a negative width or height. -/
abbrev Spacious (gaps : Direction → K) (box : LayoutBox K) : Prop :=
  box.MadeOf gaps fun _ size => ∀ d, 0 ≤ length d size

variable {gaps : Direction → K}

theorem Spacious.length_nonneg (hgaps : ∀ d, 0 ≤ gaps d) {box : LayoutBox K} (h : box.Spacious gaps)
    (e : Direction) : 0 ≤ length e box.size := by
  induction h with
  | claim hsize =>
      rw [size]
      exact hsize e
  | spacer hsize =>
      rw [size]
      exact hsize e
  | @container d children _ ih =>
      rw [size_container]
      rcases d.eq_or_eq_across e with rfl | rfl
      · apply length_packedSize_nonneg (hgaps d)
        intro size hmem
        obtain ⟨child, hchild, rfl⟩ := List.mem_map.1 hmem
        exact ih child hchild
      · exact (across_packedSize ..).1

/-- What stays within a box that is placed in a container, as the first of what is left to place, stays
within the length of all that is left, and within the container. -/
theorem within_of_child {r : Rect K} {corner : Point K} {outer inner : Size K} {along : K}
    {rest : List (Size K)} (hgap : 0 ≤ gap) (hrest : ∀ s ∈ rest, 0 ≤ length d s)
    (hfit : length d.across inner ≤ length d.across outer)
    (hchild : ∀ e, r.Within e ((childCorner d corner outer inner along).along e)
      ((childCorner d corner outer inner along).along e + length e inner)) :
    r.Within d (corner.along d + along)
      (corner.along d + along + length d (packedSize d gap (inner :: rest))) ∧
    r.Within d.across (corner.along d.across) (corner.along d.across + length d.across outer) := by
  obtain ⟨hlow, hhigh⟩ := hchild d
  obtain ⟨hlow', hhigh'⟩ := hchild d.across
  rw [length_childCorner] at hlow hhigh
  rw [across_childCorner] at hlow' hhigh'
  have hlength : length d inner ≤ length d (packedSize d gap (inner :: rest)) :=
    length_le_packedSize_cons hgap hrest
  refine ⟨⟨hlow, ?_⟩, ?_, ?_⟩
  · linarith
  · linarith
  · linarith

/-- Everything in a box stays within it, and everything in a list of boxes within their length and within
what contains them. -/
theorem within_outline (hgaps : ∀ d, 0 ≤ gaps d) :
    (∀ (box : LayoutBox K) (corner : Point K) (depth : Nat), box.Spacious gaps →
      ∀ placed ∈ box.outline corner depth, ∀ e,
        placed.rect.Within e (corner.along e) (corner.along e + length e box.size)) ∧
    ∀ (d : Direction) (gap : K) (outer : Size K) (corner : Point K) (depth : Nat)
      (children : List (LayoutBox K)) (along : K), 0 ≤ gap → (∀ child ∈ children, child.Spacious gaps) →
      (∀ child ∈ children, length d.across child.size ≤ length d.across outer) →
      ∀ placed ∈ outlineChildren d gap outer corner depth children along,
        placed.rect.Within d (corner.along d + along)
          (corner.along d + along + length d (packedSize d gap (children.map size))) ∧
        placed.rect.Within d.across (corner.along d.across)
          (corner.along d.across + length d.across outer) := by
  apply outline.mutual_induct
  · intro corner depth d gap children size ih hmade placed hmem e
    have hhere : Rect.Within ⟨corner.x, corner.y, size.width, size.height⟩ e (corner.along e)
        (corner.along e + length e size) := by
      cases e <;> exact ⟨le_refl _, le_refl _⟩
    cases hmade with
    | container hchildren =>
        rw [outline, List.mem_cons] at hmem
        rcases hmem with rfl | hmem
        · exact hhere
        have hfits : ∀ child ∈ children, length d.across child.size ≤ length d.across size := by
          intro child hchild
          simp only [size, size_container]
          exact (across_packedSize ..).2 _ (List.mem_map_of_mem hchild)
        obtain ⟨hmain, hacross⟩ := ih (hgaps d) hchildren hfits placed hmem
        rcases d.eq_or_eq_across e with rfl | rfl
        · rw [exact_zero, add_zero] at hmain
          rw [size_container]
          exact hmain
        · exact hacross
  · intro corner depth id size _ placed hmem e
    rw [outline, List.mem_singleton] at hmem
    subst hmem
    cases e <;> exact ⟨le_refl _, le_refl _⟩
  · intro corner depth size _ placed hmem e
    rw [outline, List.mem_singleton] at hmem
    subst hmem
    cases e <;> exact ⟨le_refl _, le_refl _⟩
  · intro d gap outer corner depth along _ _ _ placed hmem
    simp [outlineChildren] at hmem
  · intro d gap outer corner depth child rest along ihchild ihrest hgap hmade hfits placed hmem
    have hrest : ∀ child ∈ rest, child.Spacious gaps := fun other hother =>
      hmade other (List.mem_cons_of_mem _ hother)
    have hlengths : ∀ s ∈ rest.map size, 0 ≤ length d s := by
      intro s hs
      obtain ⟨other, hother, rfl⟩ := List.mem_map.1 hs
      exact (hrest other hother).length_nonneg hgaps d
    rw [outlineChildren, List.mem_append] at hmem
    rw [List.map_cons]
    rcases hmem with hmem | hmem
    · have hchild := ihchild (hmade child List.mem_cons_self) placed hmem
      exact within_of_child hgap hlengths (hfits child List.mem_cons_self) hchild
    · obtain ⟨⟨hlow, hhigh⟩, hacross⟩ := ihrest hgap hrest
        (fun other hother => hfits other (List.mem_cons_of_mem _ hother)) placed hmem
      have hne : rest.map size ≠ [] := by
        rintro hnil
        rw [List.map_eq_nil_iff.1 hnil, outlineChildren] at hmem
        simp at hmem
      rw [length_packedSize_cons child.size hne]
      have hnonneg := (hmade child List.mem_cons_self).length_nonneg hgaps d
      refine ⟨⟨?_, ?_⟩, hacross⟩
      · linarith
      · linarith

end LayoutBox

end ArgumentDiagram
