import ArgumentDiagram.Proofs.Layout.Arrangement

/-!
The corners that boxes are put at. A container puts its first box where it starts itself and each further one a
gap after the one before it, and whatever a box puts somewhere stands in its outline, and within it.
-/

namespace ArgumentDiagram.LayoutBox

section

variable {α : Type} [Scalar α] {box inner innermost : LayoutBox α} {corner at' at'' : Point α}

/-- How far along a container some boxes reach, with a gap after each of them. -/
def reach (d : Direction) (gap : α) (before : List (LayoutBox α)) : α :=
  before.foldl (fun along box => along + (length d box.size + gap)) 0.0

/-- A box at a corner puts another box, that it holds at any depth, at a corner. -/
inductive Puts (box : LayoutBox α) (corner : Point α) : LayoutBox α → Point α → Prop
  | self : Puts box corner box corner
  | child {d : Direction} {gap : α} {before after : List (LayoutBox α)} {inner : LayoutBox α} {at' : Point α} :
      Puts box corner (.container d gap (before ++ inner :: after)) at' →
      Puts box corner inner (childCorner d at' (container d gap (before ++ inner :: after)).size inner.size
        (reach d gap before))

theorem Puts.trans (h : box.Puts corner inner at') (h' : inner.Puts at' innermost at'') :
    box.Puts corner innermost at'' := by
  induction h' with
  | self => exact h
  | child _ ih => exact .child ih

theorem Puts.madeOf {gaps : Direction → α} {leaf : BoxKind → Size α → Prop} (h : box.Puts corner inner at')
    (hbox : box.MadeOf gaps leaf) : inner.MadeOf gaps leaf := by
  induction h with
  | self => exact hbox
  | child _ ih =>
      cases ih with
      | container hchildren => exact hchildren _ (by simp)

theorem outline_subset_outlineChildren (d : Direction) (gap : α) (outer : Size α) (corner : Point α) (depth : Nat)
    (before : List (LayoutBox α)) (inner : LayoutBox α) (after : List (LayoutBox α)) (along : α) :
    inner.outline (childCorner d corner outer inner.size
      (before.foldl (fun along box => along + (length d box.size + gap)) along)) depth ⊆
      outlineChildren d gap outer corner depth (before ++ inner :: after) along := by
  induction before generalizing along with
  | nil =>
      rw [List.nil_append, outlineChildren]
      exact List.subset_append_left ..
  | cons first rest ih =>
      rw [List.cons_append, outlineChildren]
      exact List.Subset.trans (ih _) (List.subset_append_right ..)

/-- The outline of a box takes in those of the boxes that it puts somewhere. -/
theorem Puts.outline_subset (h : box.Puts corner inner at') (depth : Nat) :
    ∃ deeper, inner.outline at' deeper ⊆ box.outline corner depth := by
  induction h with
  | self => exact ⟨depth, List.Subset.refl _⟩
  | @child d gap before after inner at' _ ih =>
      obtain ⟨deeper, hsub⟩ := ih
      rw [outline] at hsub
      have hchildren := outline_subset_outlineChildren d gap (container d gap (before ++ inner :: after)).size at'
        (deeper + 1) before inner after 0.0
      exact ⟨deeper + 1, List.Subset.trans hchildren (List.Subset.trans (List.subset_cons_self ..) hsub)⟩

theorem Puts.mem_outline (h : box.Puts corner inner at') (depth : Nat) :
    ∃ deeper, inner.placed at' deeper ∈ box.outline corner depth := by
  obtain ⟨deeper, hsub⟩ := h.outline_subset depth
  obtain ⟨_, houtline, -⟩ := inner.outline_eq_cons at' deeper
  rw [houtline] at hsub
  exact ⟨deeper, hsub List.mem_cons_self⟩

theorem exists_puts_of_mem (d : Direction) (gap : α) (corner : Point α) {children : List (LayoutBox α)}
    (hmem : inner ∈ children) : ∃ at', (container d gap children).Puts corner inner at' := by
  obtain ⟨before, after, rfl⟩ := List.append_of_mem hmem
  exact ⟨_, .child .self⟩

end

/-! ### In exact arithmetic -/

variable {K : Type} [Field K] [LinearOrder K] [IsStrictOrderedRing K] [FloorSemiring K] [Angles K]
  {box inner : LayoutBox K} {corner at' : Point K} {gaps : Direction → K}

/-- What a box puts somewhere stands within it. -/
theorem Puts.within (h : box.Puts corner inner at') (hgaps : ∀ d, 0 ≤ gaps d) (hbox : box.Spacious gaps)
    (e : Direction) : corner.along e ≤ at'.along e ∧
      at'.along e + length e inner.size ≤ corner.along e + length e box.size := by
  obtain ⟨deeper, hmem⟩ := h.mem_outline 0
  have hwithin := (within_outline hgaps).1 box corner 0 hbox _ hmem e
  cases e <;> exact hwithin

theorem exists_puts_first (d : Direction) (gap : K) (corner : Point K) (first : LayoutBox K)
    (rest : List (LayoutBox K)) : ∃ at', (container d gap (first :: rest)).Puts corner first at' ∧
      at'.along d = corner.along d := by
  have hputs : (container d gap ([] ++ first :: rest)).Puts corner first _ := .child .self
  refine ⟨_, hputs, ?_⟩
  rw [length_childCorner, reach, List.foldl_nil, exact_zero, add_zero]

theorem exists_puts_second (d : Direction) (gap : K) (corner : Point K) (first second : LayoutBox K)
    (rest : List (LayoutBox K)) : ∃ at', (container d gap (first :: second :: rest)).Puts corner second at' ∧
      at'.along d = corner.along d + length d first.size + gap := by
  have hputs : (container d gap ([first] ++ second :: rest)).Puts corner second _ := .child .self
  refine ⟨_, hputs, ?_⟩
  rw [length_childCorner, reach, List.foldl_cons, List.foldl_nil, exact_zero, zero_add, add_assoc]

end ArgumentDiagram.LayoutBox
