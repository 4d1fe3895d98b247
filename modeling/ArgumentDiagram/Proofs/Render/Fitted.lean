import ArgumentDiagram.Proofs.Geometry.Hull
import ArgumentDiagram.Proofs.Render.Script
import ArgumentDiagram.Proofs.Canvas.Repaint
import ArgumentDiagram.Proofs.Drawing.Marks
import ArgumentDiagram.Proofs.Script.Contents

/-!
The margins of the picture of a script, in exact arithmetic. Fitting makes the leftmost and the topmost box start
at the padding, and the container as large as the boxes and the padding around them need. Drawing makes the surface
as large as the container, in whole pixels, and fills the box of each claim.

Main statement: `Canvas.margins_of_script`.
-/

namespace ArgumentDiagram

section

variable {α : Type} [Scalar α] {id : ClaimId} {claim : Claim α}

theorem Scene.exists_fillRect (s : Scene α) (palette : ScopePalette) (hclaim : s.graph.claim? id = some claim) :
    ∃ color, .fillRect (claim.rect.scaled s.style.scale) color ∈ (s.elements palette).1 := by
  obtain ⟨border, hinfix⟩ := s.exists_infix_elements palette hclaim
  exact ⟨s.style.looks.background claim, hinfix.subset List.mem_cons_self⟩

/-- A script that says a claim leaves one in the graph. -/
theorem Script.exists_claim_of_load {script : Script} {vars : Variables} {g : Graph α}
    (hload : script.load .empty = .ok (vars, g)) (hclaims : ∃ s ∈ script, ∃ text, s.kind = .claim text) :
    ∃ id claim, g.claim? id = some claim := by
  obtain ⟨made, hmade, hparts⟩ := (made_nil Graph.wellFormed_empty).loadFrom (load_eq_ok.1 hload)
  obtain ⟨s, hs, text, hkind⟩ := hclaims
  have hmem : s ∈ made.map (·.1) := hmade ▸ hs
  obtain ⟨⟨s, part⟩, hitem, rfl⟩ := List.mem_map.1 hmem
  obtain ⟨before, after, hsplit⟩ := List.append_of_mem hitem
  have hadded := hparts.added before (s, part) after hsplit
  cases hadded with
  | claim _ hclaim => exact ⟨_, _, hclaim⟩
  | nothing hother => cases hkind.symm.trans hother
  | single hother => cases hkind.symm.trans hother
  | joined hother => cases hkind.symm.trans hother

end

variable {K : Type} [Field K] [LinearOrder K] [IsStrictOrderedRing K] [FloorSemiring K] [Angles K]
  {o : RenderOptions K} {g : Graph K} {l : Layout K} {id : ClaimId} {claim : Claim K} {b : Rect K}

omit [Angles K] in
/-- No whole number below the next one covers a length. -/
theorem isLeast_ceil {a : K} (h : 0 ≤ a) : IsLeast {n : ℤ | a ≤ n} (⌈a⌉₊ : ℤ) := by
  constructor
  · show a ≤ ((⌈a⌉₊ : ℤ) : K)
    rw [Int.cast_natCast]
    exact Nat.le_ceil a
  · intro n hn
    have hnonneg : 0 ≤ n := by exact_mod_cast h.trans hn
    obtain ⟨m, rfl⟩ := Int.eq_ofNat_of_zero_le hnonneg
    have hm : a ≤ (m : K) := by
      rw [← Int.cast_natCast]
      exact hn
    exact Int.ofNat_le.2 (Nat.ceil_le.2 hm)

theorem min_mostPixels {n : ℕ} (h : n < 2 ^ 32) : min n Scalar.mostPixels = n :=
  min_eq_left (Nat.le_of_lt_succ h)

/-! ### The margins -/

namespace Canvas

/-- The container is exactly as large as the boxes and the padding around them, so it decides the surface. -/
theorem pixels_arranged (hpadding : 0 ≤ o.config.render.padding) {before : Rect K}
    (hbefore : (l.apply (o.measured g)).bounds = some before) (hbounds : (arranged o g l).graph.bounds = some b) :
    (arranged o g l).pixels =
      (min ⌈o.config.render.scale * (b.right + o.config.render.padding)⌉₊ Scalar.mostPixels,
        min ⌈o.config.render.scale * (b.bottom + o.config.render.padding)⌉₊ Scalar.mostPixels) := by
  have hextent : (arranged o g l).graph.extent = ⟨b.right, b.bottom⟩ := by rw [Graph.extent, hbounds]
  have hcontainer : (arranged o g l).container = ⟨o.config.render.padding + (arranged o g l).graph.extent.width,
      o.config.render.padding + (arranged o g l).graph.extent.height⟩ := by
    have hshown : (o.canvas.showing l (o.measured g)).graph.bounds = some before := hbefore
    rw [arranged, fit, hshown]
    rfl
  have hroom : ∀ side : K, max side (o.config.render.padding + side) = side + o.config.render.padding := by
    intro side
    rw [max_eq_right (le_add_of_nonneg_left hpadding), add_comm]
  rw [pixels, hcontainer, hextent, style_arranged]
  show (Scalar.pixels (o.config.render.scale * max b.right (o.config.render.padding + b.right)),
    Scalar.pixels (o.config.render.scale * max b.bottom (o.config.render.padding + b.bottom))) = _
  rw [hroom, hroom]
  rfl

/-- A claim that is arranged is at least the padding away from the origin, within the bounds, and not turned
inside out. -/
theorem inside_arranged (hscale : 0 < o.config.render.scale) (hclaimPadding : 0 ≤ o.config.theme.claimPadding)
    (hlineHeight : 0 ≤ o.config.theme.lineHeight) (hg : g.Fresh)
    (hbuild : Layout.build (o.measured g) o.config.layout = .ok l) (hbounds : (arranged o g l).graph.bounds = some b)
    (hclaim : (arranged o g l).graph.claim? id = some claim) :
    o.config.render.padding ≤ claim.rect.x ∧ o.config.render.padding ≤ claim.rect.y ∧
      claim.rect.right ≤ b.right ∧ claim.rect.bottom ≤ b.bottom ∧
      0 ≤ claim.rect.width ∧ 0 ≤ claim.rect.height := by
  have hhull := Graph.isHull_bounds hbounds
  have hmem : claim.rect ∈ (arranged o g l).graph.boxes := ⟨id, claim, hclaim, rfl⟩
  obtain ⟨before, hbefore, -⟩ := (sameArgument_arranged o g l).claim? hclaim
  obtain ⟨b₀, hb₀⟩ := exists_bounds_of_sameArgument (sameArgument_apply o g l) hbefore
  obtain ⟨b', hb', hx, hy⟩ := exists_bounds_arranged hg hbuild hbefore
  obtain rfl := Option.some.inj (hbounds.symm.trans hb')
  obtain ⟨-, -, -, hsize⟩ := exists_of_arranged hg hbuild hb₀ hclaim
  have htwice : 0 ≤ 2 * o.config.theme.claimPadding := mul_nonneg zero_le_two hclaimPadding
  obtain ⟨hwidth, hheight⟩ := o.le_textSize hscale.le hlineHeight claim.text
  refine ⟨hx.ge.trans (hhull.left.2 ⟨_, hmem, rfl⟩), hy.ge.trans (hhull.top.2 ⟨_, hmem, rfl⟩),
    hhull.right.2 ⟨_, hmem, rfl⟩, hhull.bottom.2 ⟨_, hmem, rfl⟩, ?_⟩
  rw [Claim.rect_of_size? hsize]
  exact ⟨htwice.trans hwidth, htwice.trans hheight⟩

/-- The surface of a picture: its size in whole pixels, and what is drawn on it. -/
theorem surface_picture (hpadding : 0 ≤ o.config.render.padding) (hg : g.Fresh)
    (hbuild : Layout.build (o.measured g) o.config.layout = .ok l) {before : Rect K}
    (hbefore : (l.apply (o.measured g)).bounds = some before) (hbounds : (arranged o g l).graph.bounds = some b) :
    (picture o g l).graph = (arranged o g l).graph ∧
      (picture o g l).surface = ⟨min ⌈o.config.render.scale * (b.right + o.config.render.padding)⌉₊ Scalar.mostPixels,
        min ⌈o.config.render.scale * (b.bottom + o.config.render.padding)⌉₊ Scalar.mostPixels,
        (arranged o g l).surface.background, (arranged o g l).surface.measure,
        ((arranged o g l).scene.elements (arranged o g l).palette).1⟩ := by
  have hsame := measureClaims_arranged hg hbuild
  constructor
  · rw [picture, graph_draw, hsame]
  · rw [picture, surface_draw, hsame, pixels_arranged hpadding hbefore hbounds]

/-- **The margins of a picture.** If a script says a claim, loads and has a layout, then it has a picture. In
it the box of each claim is filled, at the scale of the picture, and stands at least the scaled padding away
from each side of the surface. The leftmost and the topmost boxes stand exactly that far away, and the surface
is as many whole pixels large as the boxes and the padding need, as long as a surface can be that large. -/
theorem margins_of_script (hscale : 0 < o.config.render.scale) (hpadding : 0 ≤ o.config.render.padding)
    (hclaimPadding : 0 ≤ o.config.theme.claimPadding) (hlineHeight : 0 ≤ o.config.theme.lineHeight)
    {script : Script} {vars : Variables} (hclaims : ∃ s ∈ script, ∃ text, s.kind = .claim text)
    (hload : script.load .empty = .ok (vars, g))
    (hbuild : Layout.build (o.measured g) o.config.layout = .ok l) :
    let scale := o.config.render.scale
    let padding := o.config.render.padding
    ∃ canvas bounds, ofScript script o = .ok canvas ∧
      canvas.graph.bounds = some bounds ∧ bounds.IsHull canvas.graph.boxes ∧
      (∀ id claim, canvas.graph.claim? id = some claim →
        (∃ color, .fillRect (claim.rect.scaled scale) color ∈ canvas.surface.elements) ∧
        0 ≤ (claim.rect.scaled scale).width ∧ 0 ≤ (claim.rect.scaled scale).height ∧
        scale * padding ≤ (claim.rect.scaled scale).x ∧ scale * padding ≤ (claim.rect.scaled scale).y ∧
        (⌈scale * (bounds.right + padding)⌉₊ < 2 ^ 32 →
          (claim.rect.scaled scale).right + scale * padding ≤ canvas.surface.width) ∧
        (⌈scale * (bounds.bottom + padding)⌉₊ < 2 ^ 32 →
          (claim.rect.scaled scale).bottom + scale * padding ≤ canvas.surface.height)) ∧
      IsLeast {x | ∃ id claim, canvas.graph.claim? id = some claim ∧ (claim.rect.scaled scale).x = x}
        (scale * padding) ∧
      IsLeast {y | ∃ id claim, canvas.graph.claim? id = some claim ∧ (claim.rect.scaled scale).y = y}
        (scale * padding) ∧
      (⌈scale * (bounds.right + padding)⌉₊ < 2 ^ 32 →
        IsLeast {n : ℤ | scale * (bounds.right + padding) ≤ n} canvas.surface.width) ∧
      (⌈scale * (bounds.bottom + padding)⌉₊ < 2 ^ 32 →
        IsLeast {n : ℤ | scale * (bounds.bottom + padding) ≤ n} canvas.surface.height) := by
  intro scale padding
  have hg := Script.fresh_of_load hload
  obtain ⟨id₀, claim₀, hclaim₀⟩ := Script.exists_claim_of_load hload hclaims
  obtain ⟨before, hbefore⟩ := exists_bounds_of_sameArgument (sameArgument_apply o g l) hclaim₀
  obtain ⟨bounds, hbounds, hx, hy⟩ := exists_bounds_arranged hg hbuild hclaim₀
  obtain ⟨hgraph, hsurface⟩ := surface_picture hpadding hg hbuild hbefore hbounds
  have hhull := Graph.isHull_bounds hbounds
  have hinside {id claim} (hclaim : (arranged o g l).graph.claim? id = some claim) :=
    inside_arranged hscale hclaimPadding hlineHeight hg hbuild hbounds hclaim
  have hstart : ∀ {p q : K}, p ≤ q → scale * p ≤ q * scale := fun h =>
    (mul_comm ..).trans_le (mul_le_mul_of_nonneg_right h hscale.le)
  have hstop : ∀ {start size side : K}, start + size ≤ side →
      start * scale + size * scale + scale * padding ≤ scale * (side + padding) := by
    intro start size side hle
    calc start * scale + size * scale + scale * padding
        = scale * (start + size + padding) := by ring
      _ ≤ scale * (side + padding) := mul_le_mul_of_nonneg_left (add_le_add_left hle padding) hscale.le
  have hroom : 0 ≤ bounds.right + padding ∧ 0 ≤ bounds.bottom + padding := by
    obtain ⟨_, ⟨id, claim, hclaim, rfl⟩, -⟩ := hhull.left.1
    obtain ⟨hleft, htop, hright, hbottom, hwidth, hheight⟩ := hinside hclaim
    exact ⟨add_nonneg ((add_nonneg (hpadding.trans hleft) hwidth).trans hright) hpadding,
      add_nonneg ((add_nonneg (hpadding.trans htop) hheight).trans hbottom) hpadding⟩
  refine ⟨picture o g l, bounds, ofScript_of_layout hload hbuild, ?_⟩
  rw [hgraph, hsurface]
  refine ⟨hbounds, hhull, fun id claim hclaim => ?_, ⟨?_, ?_⟩, ⟨?_, ?_⟩, fun hfits => ?_, fun hfits => ?_⟩
  · obtain ⟨hleft, htop, hright, hbottom, hwidth, hheight⟩ := hinside hclaim
    have hfill := (arranged o g l).scene.exists_fillRect (arranged o g l).palette hclaim
    have hscene : (arranged o g l).scene.style.scale = scale := congrArg Style.scale (style_arranged o g l)
    rw [hscene] at hfill
    refine ⟨hfill, mul_nonneg hwidth hscale.le, mul_nonneg hheight hscale.le, hstart hleft, hstart htop,
      fun hfits => ?_, fun hfits => ?_⟩
    · rw [min_mostPixels hfits]
      exact (hstop hright).trans (Nat.le_ceil _)
    · rw [min_mostPixels hfits]
      exact (hstop hbottom).trans (Nat.le_ceil _)
  · obtain ⟨_, ⟨id, claim, hclaim, rfl⟩, hleft⟩ := hhull.left.1
    exact ⟨id, claim, hclaim, (congrArg (· * scale) (hleft.trans hx)).trans (mul_comm ..)⟩
  · rintro _ ⟨id, claim, hclaim, rfl⟩
    exact hstart (hinside hclaim).1
  · obtain ⟨_, ⟨id, claim, hclaim, rfl⟩, htop⟩ := hhull.top.1
    exact ⟨id, claim, hclaim, (congrArg (· * scale) (htop.trans hy)).trans (mul_comm ..)⟩
  · rintro _ ⟨id, claim, hclaim, rfl⟩
    exact hstart (hinside hclaim).2.1
  · rw [min_mostPixels hfits]
    exact isLeast_ceil (mul_nonneg hscale.le hroom.1)
  · rw [min_mostPixels hfits]
    exact isLeast_ceil (mul_nonneg hscale.le hroom.2)

/-- A claim and one that supports it. -/
def supportedScript : Script :=
  [⟨1, "a", false, .claim "Streets are wet"⟩, ⟨2, "b", false, .claim "It rained"⟩,
    ⟨3, "x", false, .relation ["b"] .support "a"⟩]

/-- It loads and has a layout, whatever the options. -/
theorem exists_build_supported (o : RenderOptions ℚ) : ∃ vars g l,
    supportedScript.load (.empty : Graph ℚ) = .ok (vars, g) ∧
      Layout.build (o.measured g) o.config.layout = .ok l := by
  have hgraph : ((supportedScript.load (.empty : Graph ℚ)).map fun result =>
      (result.2.rootClaims, result.2.relations.values.map fun r => (r.source, r.target))) =
      .ok ([⟨0⟩], [(⟨1⟩, .claim ⟨0⟩)]) := by decide +kernel
  obtain ⟨⟨vars, g⟩, hload, hgraph⟩ := Outcome.map_eq_ok.1 hgraph
  obtain ⟨hroots, hrelations⟩ := Prod.mk.inj hgraph
  have hroot : g.IsRoot ⟨0⟩ := Graph.mem_rootClaims_iff.1 (by simp [hroots])
  have hends : ∀ id r, g.relation? id = some r → g.EndsAt (.relation id) ⟨0⟩ := by
    intro id r hr
    have hmem := List.mem_map_of_mem (f := fun r : Relation => (r.source, r.target))
      (Table.mem_values_iff.2 ⟨id, hr⟩)
    rw [hrelations, List.mem_singleton] at hmem
    exact .single (.of_target hr (Prod.mk.inj hmem).2)
  obtain ⟨l, hbuild⟩ := (o.exists_build_measured_iff (Script.fresh_of_load hload)).2 fun id _ =>
    Graph.not_onCycle_of_endsAt hroot hends id
  exact ⟨vars, g, l, hload, hbuild⟩

theorem margins_of_script_of_supported :
    let o : RenderOptions ℚ := .classic .estimate
    (0 < o.config.render.scale ∧ 0 ≤ o.config.render.padding ∧ 0 ≤ o.config.theme.claimPadding ∧
      0 ≤ o.config.theme.lineHeight ∧ ∃ s ∈ supportedScript, ∃ text, s.kind = .claim text) ∧
    ∃ vars g l canvas, supportedScript.load (.empty : Graph ℚ) = .ok (vars, g) ∧
      Layout.build (o.measured g) o.config.layout = .ok l ∧ ofScript supportedScript o = .ok canvas ∧
      IsLeast {x | ∃ id claim, canvas.graph.claim? id = some claim ∧
        (claim.rect.scaled o.config.render.scale).x = x} (o.config.render.scale * o.config.render.padding) := by
  intro o
  have ho : o.Roomy := RenderOptions.roomy_classic _
  have hpadding : 0 ≤ o.config.render.padding := by
    norm_num [o, RenderOptions.classic, Config.standard, Config.ofTheme]
  have hclaims : ∃ s ∈ supportedScript, ∃ text, s.kind = .claim text :=
    ⟨_, List.mem_cons_self, "Streets are wet", rfl⟩
  obtain ⟨vars, g, l, hload, hbuild⟩ := exists_build_supported o
  obtain ⟨canvas, -, hcanvas, -, -, -, hleft, -⟩ :=
    margins_of_script ho.scale hpadding ho.claimPadding ho.lineHeight hclaims hload hbuild
  exact ⟨⟨ho.scale, hpadding, ho.claimPadding, ho.lineHeight, hclaims⟩, vars, g, l, canvas, hload, hbuild, hcanvas,
    hleft⟩

end Canvas

end ArgumentDiagram
