import ArgumentDiagram.Proofs.Geometry.Exact
import Mathlib.Order.Bounds.Image
import ArgumentDiagram.Graph.Query
import ArgumentDiagram.Table.Lemmas

/-!
Hulls in exact arithmetic. The hull of some rectangles reaches exactly as far as they do on each side, and the
bounds of a graph are the hull of the boxes of its claims.
-/

namespace ArgumentDiagram

section

variable {β K : Type} [LinearOrder K]

/-- The largest of some numbers is one of them. -/
theorem isGreatest_foldl_max (f : β → K) (init : K) (items : List β) :
    IsGreatest {x | x = init ∨ ∃ b ∈ items, f b = x} (items.foldl (fun most b => max most (f b)) init) := by
  induction items generalizing init with
  | nil => simp
  | cons item rest ih =>
      obtain ⟨hmem, hbound⟩ := ih (max init (f item))
      constructor
      · rcases hmem with hlast | ⟨b, hb, hlast⟩
        · rcases max_choice init (f item) with hmax | hmax
          · exact .inl (hlast.trans hmax)
          · exact .inr ⟨item, List.mem_cons_self, (hlast.trans hmax).symm⟩
        · exact .inr ⟨b, List.mem_cons_of_mem _ hb, hlast⟩
      · have hinit : max init (f item) ≤ rest.foldl (fun most b => max most (f b)) (max init (f item)) :=
          hbound (.inl rfl)
        rintro x (rfl | ⟨b, hb, rfl⟩)
        · exact (le_max_left ..).trans hinit
        · rcases List.mem_cons.1 hb with rfl | hb
          · exact (le_max_right ..).trans hinit
          · exact hbound (.inr ⟨b, hb, rfl⟩)

/-- The smallest of some numbers is one of them. -/
theorem isLeast_foldl_min (f : β → K) (init : K) (items : List β) :
    IsLeast {x | x = init ∨ ∃ b ∈ items, f b = x} (items.foldl (fun least b => min least (f b)) init) :=
  isGreatest_foldl_max (K := Kᵒᵈ) f init items

end

/-- A rectangle somewhere else. -/
def Rect.shifted {α : Type} [Scalar α] (r : Rect α) (dx dy : α) : Rect α := { r with x := r.x + dx, y := r.y + dy }

/-- The box of a claim that has a size. -/
theorem Claim.rect_of_size? {α : Type} [Scalar α] {c : Claim α} {size : Size α}
    (h : c.placement.size? = some size) : c.rect = ⟨c.placement.x, c.placement.y, size.width, size.height⟩ := by
  obtain ⟨width, height⟩ := size
  cases hwidth : c.placement.width <;> cases hheight : c.placement.height <;>
    simp_all [Placement.size?, rect, Placement.rect]

variable {K : Type} [Field K] [LinearOrder K] [FloorSemiring K] [Angles K]

/-- A rectangle reaches as far as some rectangles do, on each side. -/
structure Rect.IsHull (hull : Rect K) (rects : Set (Rect K)) : Prop where
  left : IsLeast {x | ∃ r ∈ rects, r.x = x} hull.x
  top : IsLeast {y | ∃ r ∈ rects, r.y = y} hull.y
  right : IsGreatest {x | ∃ r ∈ rects, r.right = x} hull.right
  bottom : IsGreatest {y | ∃ r ∈ rects, r.bottom = y} hull.bottom

theorem Rect.isHull_hull {rects : List (Rect K)} {b : Rect K} (h : Rect.hull rects = some b) :
    b.IsHull {r | r ∈ rects} := by
  cases rects with
  | nil => cases h
  | cons first rest =>
      obtain rfl := Option.some.inj h
      have hset : ∀ f : Rect K → K, {x | ∃ r ∈ {r | r ∈ first :: rest}, f r = x} =
          {x | x = f first ∨ ∃ r ∈ rest, f r = x} := by
        intro f
        ext x
        simp [eq_comm]
      have hright : ∀ left right : K, left + (right - left) = right := add_sub_cancel
      constructor
      case left =>
        rw [hset]
        exact isLeast_foldl_min Rect.x first.x rest
      case top =>
        rw [hset]
        exact isLeast_foldl_min Rect.y first.y rest
      case right =>
        show IsGreatest _ ((_ : K) + (_ - _))
        rw [hset, hright]
        exact isGreatest_foldl_max Rect.right first.right rest
      case bottom =>
        show IsGreatest _ ((_ : K) + (_ - _))
        rw [hset, hright]
        exact isGreatest_foldl_max Rect.bottom first.bottom rest

/-- The hull moves with what it is the hull of. -/
theorem Rect.IsHull.shifted [IsStrictOrderedRing K] {hull : Rect K} {rects : Set (Rect K)} (h : hull.IsHull rects)
    (dx dy : K) : (hull.shifted dx dy).IsHull {r | ∃ s ∈ rects, r = s.shifted dx dy} := by
  have hset : ∀ (f : Rect K → K) (d : K), (∀ s, f (s.shifted dx dy) = f s + d) →
      {x | ∃ r ∈ {r | ∃ s ∈ rects, r = s.shifted dx dy}, f r = x} = (· + d) '' {x | ∃ r ∈ rects, f r = x} := by
    intro f d hf
    ext x
    constructor
    · rintro ⟨_, ⟨s, hs, rfl⟩, rfl⟩
      exact ⟨f s, ⟨s, hs, rfl⟩, (hf s).symm⟩
    · rintro ⟨_, ⟨s, hs, rfl⟩, rfl⟩
      exact ⟨_, ⟨s, hs, rfl⟩, hf s⟩
  have hmono : ∀ d : K, Monotone (· + d) := fun d _ _ hle => add_le_add_left hle d
  have hright : ∀ s : Rect K, (s.shifted dx dy).right = s.right + dx := fun s => add_right_comm ..
  have hbottom : ∀ s : Rect K, (s.shifted dx dy).bottom = s.bottom + dy := fun s => add_right_comm ..
  constructor
  case left =>
    rw [hset Rect.x dx fun _ => rfl]
    exact (hmono dx).map_isLeast h.left
  case top =>
    rw [hset Rect.y dy fun _ => rfl]
    exact (hmono dy).map_isLeast h.top
  case right =>
    rw [hset Rect.right dx hright, hright]
    exact (hmono dx).map_isGreatest h.right
  case bottom =>
    rw [hset Rect.bottom dy hbottom, hbottom]
    exact (hmono dy).map_isGreatest h.bottom

namespace Graph

variable {g : Graph K}

/-- The boxes of the live claims. -/
def boxes {α : Type} [Scalar α] (g : Graph α) : Set (Rect α) :=
  {r | ∃ id claim, g.claim? id = some claim ∧ claim.rect = r}

/-- Only a graph without claims has no bounds. -/
theorem claim?_of_bounds {α : Type} [Scalar α] {g : Graph α} (h : g.bounds = none) (id : ClaimId) :
    g.claim? id = none := by
  rw [Option.eq_none_iff_forall_ne_some]
  intro claim hclaim
  have hmem := Table.mem_values_iff.2 ⟨id, hclaim⟩
  cases hvalues : g.claims.values with
  | nil => simp [hvalues] at hmem
  | cons first rest => simp [bounds, hvalues, Rect.hull] at h

theorem isHull_bounds {b : Rect K} (h : g.bounds = some b) : b.IsHull g.boxes := by
  have hboxes : g.boxes = {r | r ∈ g.claims.values.map Claim.rect} := by
    ext r
    constructor
    · rintro ⟨id, claim, hclaim, hr⟩
      exact List.mem_map.2 ⟨claim, Table.mem_values_iff.2 ⟨id, hclaim⟩, hr⟩
    · intro hmem
      obtain ⟨claim, hvalue, hr⟩ := List.mem_map.1 hmem
      obtain ⟨id, hclaim⟩ := Table.mem_values_iff.1 hvalue
      exact ⟨id, claim, hclaim, hr⟩
  rw [hboxes]
  exact Rect.isHull_hull h

end Graph

end ArgumentDiagram
