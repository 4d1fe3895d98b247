import ArgumentDiagram.Proofs.Geometry.Exact
import Mathlib.Tactic.FieldSimp
import Mathlib.Tactic.Ring
import ArgumentDiagram.Geometry.Attachment

/-!
Where lines meet boxes, in exact arithmetic. The end of a line stands between the two centers at the line of one
edge: that of a side if the line is flat, and that of the top or bottom if it is steep. Main statement: it is on
the border of the box but for one wedge of directions, in which a steep line ends past the edge of a side.
-/

namespace ArgumentDiagram.CenteredBox

variable {K : Type} [Field K] [LinearOrder K] {source target : CenteredBox K}

/-- The points of a box, its border among them. -/
structure Holds (box : CenteredBox K) (p : Point K) : Prop where
  along : |p.x - box.center.x| ≤ box.width / 2
  across : |p.y - box.center.y| ≤ box.height / 2

/-- The points in line with the left or the right edge. -/
def OnSideLine (box : CenteredBox K) (p : Point K) : Prop := |p.x - box.center.x| = box.width / 2

/-- The points in line with the top or the bottom edge. -/
def OnCapLine (box : CenteredBox K) (p : Point K) : Prop := |p.y - box.center.y| = box.height / 2

/-- The point that is `t` times as far from the center of the target as the center of the source is, on the
same side. -/
def toward (target source : CenteredBox K) (t : K) : Point K :=
  ⟨target.center.x + t * (source.center.x - target.center.x),
    target.center.y + t * (source.center.y - target.center.y)⟩

/-- How far the line between the centers runs for each unit that it rises. -/
def slant (target source : CenteredBox K) : K :=
  (source.center.x - target.center.x) / (source.center.y - target.center.y)

/-- The directions in which a line ends past the edge of a side: to the upper right or the lower left, steeper
than the diagonal of the box but not twice as steep. -/
def Overshoots (target source : CenteredBox K) : Prop :=
  -(target.width / target.height) < target.slant source ∧
    target.slant source < -(target.width / (2 * target.height))

variable [IsStrictOrderedRing K]

theorem along_toward {t : K} (ht : 0 ≤ t) :
    |(target.toward source t).x - target.center.x| = t * |source.center.x - target.center.x| := by
  rw [toward, add_sub_cancel_left, abs_mul, abs_of_nonneg ht]

theorem across_toward {t : K} (ht : 0 ≤ t) :
    |(target.toward source t).y - target.center.y| = t * |source.center.y - target.center.y| := by
  rw [toward, add_sub_cancel_left, abs_mul, abs_of_nonneg ht]

theorem slant_pos (hx : source.center.x ≠ target.center.x) (hy : source.center.y ≠ target.center.y) :
    0 < |target.slant source| :=
  abs_pos.2 (div_ne_zero (sub_ne_zero.2 hx) (sub_ne_zero.2 hy))

variable [FloorSemiring K] [Angles K]

/-- Half of the sign of a difference. -/
theorem half_sign {a b : K} (hne : a ≠ b) :
    (if Scalar.lt a b then -0.5 else 0.5 : K) = (a - b) / (2 * |a - b|) := by
  have hhalf : (0.5 : K) = 1 / 2 := by norm_num
  have hdiff : a - b ≠ 0 := sub_ne_zero.2 hne
  rw [hhalf]
  by_cases hlt : a < b
  · have hlt' : Scalar.lt a b = true := decide_eq_true hlt
    rw [if_pos hlt', abs_of_neg (sub_neg.2 hlt)]
    field_simp
  · have hlt' : ¬Scalar.lt a b = true := by simpa [Scalar.lt] using hlt
    rw [if_neg hlt', abs_of_nonneg (sub_nonneg.2 (not_lt.1 hlt))]
    field_simp

/-! ### The two candidates -/

theorem onSide_eq (hx : source.center.x ≠ target.center.x) :
    target.onSide source = target.toward source (target.width / (2 * |source.center.x - target.center.x|)) := by
  have hrun : source.center.x - target.center.x ≠ 0 := sub_ne_zero.2 hx
  unfold onSide toward
  rw [half_sign hx]
  refine congrArg₂ Point.mk ?_ ?_
  · rw [div_mul_comm]
  · field_simp

theorem onCap_eq (hy : source.center.y ≠ target.center.y) :
    target.onCap source = target.toward source (target.height / (2 * |source.center.y - target.center.y|)) := by
  have hrise : source.center.y - target.center.y ≠ 0 := sub_ne_zero.2 hy
  unfold onCap toward
  rw [half_sign hy]
  refine congrArg₂ Point.mk ?_ ?_
  · field_simp
  · rw [div_mul_comm]

/-- The line ends at the top or the bottom if its slant is below the aspect of the box, and not below minus half of
that. -/
theorem leavesThroughCap_iff (hh : 0 < target.height) : target.leavesThroughCap source = true ↔
    -(target.width / (2 * target.height)) ≤ target.slant source ∧
      target.slant source < target.width / target.height := by
  have hbound : -(target.width / (2 * target.height)) = -0.5 * target.width / target.height := by
    have hhalf : (0.5 : K) = 1 / 2 := by norm_num
    rw [hhalf]
    field_simp
  rw [hbound, div_le_iff₀ hh]
  simp [leavesThroughCap, slant, Scalar.lt, and_comm]

section

variable (hx : source.center.x ≠ target.center.x) (hy : source.center.y ≠ target.center.y)

include hx

theorem onSideLine_onSide (hw : 0 < target.width) : target.OnSideLine (target.onSide source) := by
  have hrun : 0 < |source.center.x - target.center.x| := abs_pos.2 (sub_ne_zero.2 hx)
  rw [OnSideLine, onSide_eq hx, along_toward (by positivity)]
  field_simp

omit hx in
include hy in
theorem onCapLine_onCap (hh : 0 < target.height) : target.OnCapLine (target.onCap source) := by
  have hrise : 0 < |source.center.y - target.center.y| := abs_pos.2 (sub_ne_zero.2 hy)
  rw [OnCapLine, onCap_eq hy, across_toward (by positivity)]
  field_simp

include hy

theorem across_onSide (hw : 0 < target.width) :
    |(target.onSide source).y - target.center.y| = target.width / (2 * |target.slant source|) := by
  have hrun : 0 < |source.center.x - target.center.x| := abs_pos.2 (sub_ne_zero.2 hx)
  have hrise : 0 < |source.center.y - target.center.y| := abs_pos.2 (sub_ne_zero.2 hy)
  rw [onSide_eq hx, across_toward (by positivity), slant, abs_div]
  field_simp

theorem along_onCap (hh : 0 < target.height) :
    |(target.onCap source).x - target.center.x| = target.height * |target.slant source| / 2 := by
  have hrise : 0 < |source.center.y - target.center.y| := abs_pos.2 (sub_ne_zero.2 hy)
  rw [onCap_eq hy, along_toward (by positivity), slant, abs_div]
  field_simp

variable (hh : 0 < target.height)

include hh

/-- Flat lines leave a box through its sides. -/
theorem holds_onSide_iff (hw : 0 < target.width) :
    target.Holds (target.onSide source) ↔ target.width / target.height ≤ |target.slant source| := by
  have hslant := slant_pos hx hy
  have hacross : target.width / (2 * |target.slant source|) ≤ target.height / 2 ↔
      target.width / target.height ≤ |target.slant source| := by
    rw [div_le_div_iff₀ (by positivity) two_pos, div_le_iff₀ hh]
    constructor <;> intro h <;> linarith
  rw [← hacross, ← across_onSide hx hy hw]
  exact ⟨Holds.across, fun h => ⟨(onSideLine_onSide hx hw).le, h⟩⟩

/-- Steep lines leave it through the top or the bottom. -/
theorem holds_onCap_iff :
    target.Holds (target.onCap source) ↔ |target.slant source| ≤ target.width / target.height := by
  have halong : target.height * |target.slant source| / 2 ≤ target.width / 2 ↔
      |target.slant source| ≤ target.width / target.height := by
    rw [div_le_div_iff_of_pos_right two_pos, le_div_iff₀ hh, mul_comm]
  rw [← halong, ← along_onCap hx hy hh]
  exact ⟨Holds.along, fun h => ⟨h, (onCapLine_onCap hy hh).le⟩⟩

variable (hw : 0 < target.width)

include hw

/-- Past the edge of a side a line ends less than half the height of the box away from it. -/
theorem across_of_overshoots (hover : target.Overshoots source) :
    target.height / 2 < |(target.onSide source).y - target.center.y| ∧
      |(target.onSide source).y - target.center.y| < target.height := by
  obtain ⟨hdiagonal, hhalf⟩ := hover
  have hslant := slant_pos hx hy
  have habs : |target.slant source| = -target.slant source := by
    refine abs_of_neg (hhalf.trans ?_)
    rw [neg_lt_zero]
    positivity
  have hsteep : |target.slant source| * target.height < target.width := by
    rw [← lt_div_iff₀ hh, habs]
    exact neg_lt.1 hdiagonal
  have hflat : target.width < |target.slant source| * (2 * target.height) := by
    rw [← div_lt_iff₀ (by positivity), habs]
    exact lt_neg.1 hhalf
  rw [across_onSide hx hy hw]
  constructor
  · rw [div_lt_div_iff₀ two_pos (by positivity)]
    linarith
  · rw [div_lt_iff₀ (by positivity)]
    linarith

/-- The line between two centers that differ in both coordinates ends on the source's side of the target, in line
with one of its edges, and on its border unless the direction is one of those in which it overshoots. Then it ends
past the edge of a side, by less than half the height of the box. -/
theorem attachment_on_border :
    (∃ t, 0 < t ∧ source.attachment target = target.toward source t) ∧
      (target.OnSideLine (source.attachment target) ∨ target.OnCapLine (source.attachment target)) ∧
      (target.Holds (source.attachment target) ↔ ¬target.Overshoots source) ∧
      (target.Overshoots source → target.OnSideLine (source.attachment target) ∧
        target.height / 2 < |(source.attachment target).y - target.center.y| ∧
        |(source.attachment target).y - target.center.y| < target.height) := by
  have hrun : 0 < |source.center.x - target.center.x| := abs_pos.2 (sub_ne_zero.2 hx)
  have hrise : 0 < |source.center.y - target.center.y| := abs_pos.2 (sub_ne_zero.2 hy)
  have haspect : target.width / (2 * target.height) < target.width / target.height :=
    div_lt_div_of_pos_left hw hh (by linarith)
  have hpositive : 0 < target.width / (2 * target.height) := by positivity
  unfold attachment
  split
  next hcap =>
    obtain ⟨hlow, hhigh⟩ := (leavesThroughCap_iff hh).1 hcap
    have hinside : target.Holds (target.onCap source) :=
      (holds_onCap_iff hx hy hh).2 (abs_le.2 ⟨by linarith, hhigh.le⟩)
    have hnever : ¬target.Overshoots source := fun hover => hover.2.not_ge hlow
    exact ⟨⟨_, by positivity, onCap_eq hy⟩, .inr (onCapLine_onCap hy hh), by simp [hinside, hnever],
      fun hover => absurd hover hnever⟩
  next hcap =>
    refine ⟨⟨_, by positivity, onSide_eq hx⟩, .inl (onSideLine_onSide hx hw), ?_, fun hover =>
      ⟨onSideLine_onSide hx hw, across_of_overshoots hx hy hh hw hover⟩⟩
    rw [holds_onSide_iff hx hy hh hw]
    constructor
    · rintro houtside ⟨hdiagonal, hhalf⟩
      have hinside : |target.slant source| < target.width / target.height :=
        abs_lt.2 ⟨hdiagonal, by linarith⟩
      exact hinside.not_ge houtside
    · intro hmisses
      -- a line that is not flat enough to the right falls to the left, and there it misses the wedge
      rcases lt_or_ge (target.slant source) (target.width / target.height) with hhigh | hflat
      · have hhalf : target.slant source < -(target.width / (2 * target.height)) :=
          not_le.1 fun hlow => hcap ((leavesThroughCap_iff hh).2 ⟨hlow, hhigh⟩)
        have hflat : target.slant source ≤ -(target.width / target.height) :=
          not_lt.1 fun hdiagonal => hmisses ⟨hdiagonal, hhalf⟩
        exact (le_neg.1 hflat).trans (neg_le_abs _)
      · exact hflat.trans (le_abs_self _)

end

/-- A source to the lower left of a box twice as wide as high, in a direction in which lines overshoot: the line
ends below the lower left corner. -/
theorem attachment_on_border_of_lower_left :
    let source : CenteredBox ℚ := ⟨⟨-3, 2⟩, 2, 2⟩
    let target : CenteredBox ℚ := ⟨⟨0, 0⟩, 4, 2⟩
    source.center.x ≠ target.center.x ∧ source.center.y ≠ target.center.y ∧ 0 < target.width ∧
      0 < target.height ∧ target.Overshoots source ∧ source.attachment target = ⟨-2, 4 / 3⟩ ∧
      ¬target.Holds (source.attachment target) := by
  intro source target
  have hx : source.center.x ≠ target.center.x := by decide
  have hy : source.center.y ≠ target.center.y := by decide
  have hw : 0 < target.width := by decide
  have hh : 0 < target.height := by decide
  have hover : target.Overshoots source := by
    refine ⟨?_, ?_⟩ <;> norm_num [slant, source, target]
  refine ⟨hx, hy, hw, hh, hover, by decide +kernel, fun hholds => ?_⟩
  exact (attachment_on_border hx hy hh hw).2.2.1.1 hholds hover

end ArgumentDiagram.CenteredBox
