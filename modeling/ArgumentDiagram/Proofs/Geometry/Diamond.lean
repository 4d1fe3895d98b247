import ArgumentDiagram.Proofs.Geometry.Exact
import Mathlib.Tactic.Ring

/-!
Rational directions. The angle from one point to another depends on where the other one lies and not on how far away
it is, and going that far along it leads there, so pictures over the rationals point where they should.
-/

namespace ArgumentDiagram.Diamond

theorem cos_add_four (angle : ℚ) : Angles.cos (angle + 4) = Angles.cos angle := by
  show |4 * Int.fract ((angle + 4) / 4) - 2| - 1 = |4 * Int.fract (angle / 4) - 2| - 1
  rw [add_div, div_self four_ne_zero, Int.fract_add_one]

theorem cos_of_nonneg {angle : ℚ} (h : 0 ≤ angle) (h' : angle < 4) : Angles.cos angle = |angle - 2| - 1 := by
  have hfract : Int.fract (angle / 4) = angle / 4 := Int.fract_eq_self.2 ⟨by linarith, by linarith⟩
  show |4 * Int.fract (angle / 4) - 2| - 1 = _
  rw [hfract, mul_div_cancel₀ angle four_ne_zero]

theorem cos_of_abs_le {angle : ℚ} (h : |angle| ≤ 2) : Angles.cos angle = 1 - |angle| := by
  obtain ⟨hlow, hhigh⟩ := abs_le.1 h
  rcases le_or_gt 0 angle with hnonneg | hneg
  · rw [cos_of_nonneg hnonneg (by linarith), abs_of_nonpos (by linarith), abs_of_nonneg hnonneg]
    ring
  · rw [← cos_add_four, cos_of_nonneg (by linarith) (by linarith), abs_of_nonneg (by linarith), abs_of_neg hneg]
    ring

theorem sin_eq (angle : ℚ) : Angles.sin angle = Angles.cos (angle - 1) := rfl

/-- To the right a direction is as far from the level as it rises. -/
theorem cos_sin_of_right {rise : ℚ} (h : |rise| ≤ 1) :
    Angles.cos rise = 1 - |rise| ∧ Angles.sin rise = rise := by
  obtain ⟨hlow, hhigh⟩ := abs_le.1 h
  have hsin : Angles.cos (rise - 1) = rise := by
    rw [cos_of_abs_le (abs_le.2 ⟨by linarith, by linarith⟩), abs_of_nonpos (by linarith)]
    ring
  exact ⟨cos_of_abs_le (by linarith), hsin⟩

/-- To the left it is measured from half a turn. -/
theorem cos_sin_of_left {rise : ℚ} (h : |rise| ≤ 1) :
    Angles.cos (2 - rise) = |rise| - 1 ∧ Angles.sin (2 - rise) = rise := by
  obtain ⟨hlow, hhigh⟩ := abs_le.1 h
  have hcos : Angles.cos (2 - rise) = |rise| - 1 := by
    rw [cos_of_nonneg (by linarith) (by linarith), sub_sub_cancel_left, abs_neg]
  have hsin : Angles.cos (2 - rise - 1) = rise := by
    rw [cos_of_abs_le (abs_le.2 ⟨by linarith, by linarith⟩), abs_of_nonneg (by linarith)]
    ring
  exact ⟨hcos, hsin⟩

theorem atan2_eq (y x : ℚ) : Angles.atan2 y x = if 0 ≤ x then y / (|x| + |y|) else
    if 0 ≤ y then 2 - y / (|x| + |y|) else -2 - y / (|x| + |y|) := rfl

/-- Directions do not depend on lengths. -/
theorem atan2_mul {factor : ℚ} (h : 0 < factor) (y x : ℚ) :
    Angles.atan2 (y * factor) (x * factor) = Angles.atan2 y x := by
  have hlength : |x * factor| + |y * factor| = (|x| + |y|) * factor := by
    rw [abs_mul, abs_mul, abs_of_pos h, add_mul]
  rw [atan2_eq, atan2_eq, hlength, mul_div_mul_right _ _ h.ne']
  simp only [mul_nonneg_iff_of_pos_right h]

/-- The cosine and the sine of a direction give back its legs. Here `rise` is how far it rises on a length of
one. -/
theorem cos_sin_atan2 {y x length rise : ℚ} (hlength : |x| + |y| = length) (hpos : 0 < length)
    (hrise : length * rise = y) :
    length * Angles.cos (Angles.atan2 y x) = x ∧ length * Angles.sin (Angles.atan2 y x) = y := by
  have habs : length * |rise| = |y| := by rw [← hrise, abs_mul, abs_of_pos hpos]
  have hsteep : |rise| ≤ 1 := by
    refine le_of_mul_le_mul_left ?_ hpos
    linarith [abs_nonneg x]
  rw [atan2_eq, hlength, ← hrise, mul_div_cancel_left₀ rise hpos.ne', hrise]
  split
  next hright =>
    obtain ⟨hcos, hsin⟩ := cos_sin_of_right hsteep
    have hleg : length * (1 - |rise|) = x := by
      rw [mul_one_sub, habs, ← hlength, add_sub_cancel_right, abs_of_nonneg hright]
    rw [hcos, hsin]
    exact ⟨hleg, hrise⟩
  next hleft =>
    obtain ⟨hcos, hsin⟩ := cos_sin_of_left hsteep
    have hleg : length * (|rise| - 1) = x := by
      rw [mul_sub_one, habs, ← hlength, abs_of_neg (not_le.1 hleft)]
      ring
    split
    · rw [hcos, hsin]
      exact ⟨hleg, hrise⟩
    -- Above the level the angle is counted the other way, which is a full turn less.
    · have hcos' : Angles.cos (-2 - rise) = |rise| - 1 := by
        rw [← cos_add_four, show -2 - rise + 4 = 2 - rise by ring, hcos]
      have hsin' : Angles.sin (-2 - rise) = rise := by
        rw [sin_eq, ← cos_add_four, show -2 - rise - 1 + 4 = 2 - rise - 1 by ring, ← sin_eq, hsin]
      rw [hcos', hsin']
      exact ⟨hleg, hrise⟩

/-- Going along a direction leads where it was taken. -/
theorem polarOffset_direction (start tip : Point ℚ) :
    start.polarOffset (|tip.x - start.x| + |tip.y - start.y|) (start.direction tip) = tip := by
  have hlands : ∀ length : ℚ, |tip.x - start.x| + |tip.y - start.y| = length →
      length * Angles.cos (start.direction tip) = tip.x - start.x ∧
        length * Angles.sin (start.direction tip) = tip.y - start.y := by
    intro length hlength
    rcases (hlength ▸ add_nonneg (abs_nonneg _) (abs_nonneg _) : 0 ≤ length).eq_or_lt with rfl | hpos
    · obtain ⟨hx, hy⟩ := (add_eq_zero_iff_of_nonneg (abs_nonneg _) (abs_nonneg _)).1 hlength
      rw [zero_mul, zero_mul, abs_eq_zero.1 hx, abs_eq_zero.1 hy]
      exact ⟨rfl, rfl⟩
    · exact cos_sin_atan2 hlength hpos (mul_div_cancel₀ _ hpos.ne')
  obtain ⟨hx, hy⟩ := hlands _ rfl
  show Point.mk (start.x + _ * Angles.cos _) (start.y + _ * Angles.sin _) = tip
  rw [hx, hy, add_sub_cancel, add_sub_cancel]

end ArgumentDiagram.Diamond
