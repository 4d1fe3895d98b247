import ArgumentDiagram.Proofs.Layout.Overlap
import ArgumentDiagram.Proofs.Geometry.Hull
import ArgumentDiagram.Proofs.Graph.Building
import ArgumentDiagram.Proofs.Payload.Contents
import ArgumentDiagram.Render.Basic

/-!
Pictures of payloads in exact arithmetic. A picture shows each claim that reaches a root in one of its boxes,
and all others in one corner, as no layout places them. Main statement: claims that reach a root do not
overlap, so without cycles none do, while those that reach no root lie on top of each other.
-/

namespace ArgumentDiagram

section

variable {α : Type} {g : Graph α} {id : ClaimId}

theorem Graph.claim?_measureClaims_of_measured {sizeOf : List String → Size α}
    (h : ∀ c, g.claim? id = some c → c.isMeasured) :
    (g.measureClaims sizeOf).2.claim? id = g.claim? id := by
  rw [measureClaims, claim?_updateWhere]
  cases hc : g.claim? id with
  | none => rfl
  | some c => simp [h c hc]

theorem Graph.SameArgument.exists_claim {g' : Graph α} (h : g.SameArgument g') (hid : id ∈ g.claimIds) :
    ∃ claim, g'.claim? id = some claim := by
  rw [← contains_claim_iff, h.contains]
  exact mem_claimIds_iff.1 hid

variable [Scalar α] {c : Canvas α} {payload : Payload} {o : RenderOptions α}

/-- A rectangle further down. -/
def Rect.lowered (r : Rect α) (dy : α) : Rect α := { r with y := r.y + dy }

/-- A claim further down. -/
def Claim.lowered (c : Claim α) (dy : α) : Claim α :=
  c.mapPlacement fun p => p.moveTo ⟨p.x, p.y + dy⟩

/-- The size of a claim in a picture. -/
def RenderOptions.textSize (o : RenderOptions α) (lines : List String) : Size α :=
  Canvas.textSize o.canvas.surface o.style lines

/-- A graph whose claims are measured for a picture. -/
def RenderOptions.measured (o : RenderOptions α) (g : Graph α) : Graph α := (g.measureClaims o.textSize).2

namespace Canvas

/-- A canvas that shows a graph as a layout has it. -/
def showing (c : Canvas α) (l : Layout α) (g : Graph α) : Canvas α :=
  { c with graph := l.apply g, outline := some l.outline, frameRequested := true }

theorem laidOut_eq (c : Canvas α) (g : Graph α) : c.laidOut g =
    (Layout.build (g.measureClaims (textSize c.surface c.style)).2 c.settings).map
      (c.showing · (g.measureClaims (textSize c.surface c.style)).2) := by
  have hlayout : (c.editGraph fun _ => g).layout =
      (Layout.build (g.measureClaims (textSize c.surface c.style)).2 c.settings,
        (c.editGraph fun _ => g).measureClaims.2) := rfl
  -- What asking for a frame changes is not looked at by measuring and building.
  rw [laidOut, applyLayout, hlayout]
  cases Layout.build (g.measureClaims (textSize c.surface c.style)).2 c.settings <;> rfl

theorem ofPayload_eq_ok : ofPayload payload o = .ok c ↔
    ∃ loaded g l, payload.load .empty = .ok (loaded, g) ∧
      Layout.build (o.measured g) o.config.layout = .ok l ∧
      ((o.canvas.showing l (o.measured g)).fitVertically o.config.render.padding).draw = c := by
  have hlaidOut : ∀ g, o.canvas.laidOut g =
      (Layout.build (o.measured g) o.config.layout).map (o.canvas.showing · (o.measured g)) :=
    laidOut_eq o.canvas
  simp only [ofPayload, Outcome.bind_eq_ok, hlaidOut, Outcome.map_eq_ok]
  constructor
  · rintro ⟨⟨loaded, g⟩, hload, _, ⟨l, hbuild, rfl⟩, hdraw⟩
    exact ⟨loaded, g, l, hload, hbuild, Except.ok.inj hdraw⟩
  · rintro ⟨loaded, g, l, hload, hbuild, rfl⟩
    exact ⟨(loaded, g), hload, _, ⟨l, hbuild, rfl⟩, rfl⟩

theorem sameArgument_fitVertically (c : Canvas α) (padding : α) :
    c.graph.SameArgument (c.fitVertically padding).graph := by
  rw [fitVertically]
  split
  · exact .refl _
  · exact Graph.sameArgument_updateAll ..

theorem sameArgument_draw (c : Canvas α) : c.graph.SameArgument c.draw.graph :=
  Graph.sameArgument_measureClaims ..

/-- Drawing measures what is not measured, and changes nothing else. -/
theorem claim?_draw (h : ∀ claim, c.graph.claim? id = some claim → claim.isMeasured) :
    c.draw.graph.claim? id = c.graph.claim? id :=
  Graph.claim?_measureClaims_of_measured h

end Canvas

namespace RenderOptions

theorem sameArgument_measured (o : RenderOptions α) (g : Graph α) : g.SameArgument (o.measured g) :=
  Graph.sameArgument_measureClaims ..

theorem wellFormed_measured (o : RenderOptions α) (hg : g.Fresh) : (o.measured g).WellFormed :=
  (o.sameArgument_measured g).wellFormed hg.wellFormed

/-- What was loaded into an empty graph is where it was made, and as large as its text. -/
theorem placement_measured (o : RenderOptions α) (hg : g.Fresh) {claim : Claim α}
    (hclaim : (o.measured g).claim? id = some claim) :
    claim.placement = Placement.initial.measure (o.textSize claim.text) := by
  rw [measured, Graph.measureClaims, Graph.claim?_updateWhere, Option.map_eq_some_iff] at hclaim
  obtain ⟨before, hbefore, rfl⟩ := hclaim
  have hplacement := hg.placement_eq hbefore
  have hunmeasured : (!before.isMeasured) = true := by
    rw [Claim.isMeasured, hplacement]
    rfl
  rw [if_pos hunmeasured]
  exact congrArg (·.measure (o.textSize before.text)) hplacement

theorem exists_build_measured_iff (o : RenderOptions α) (hg : g.Fresh) :
    (∃ l, Layout.build (o.measured g) o.config.layout = .ok l) ↔ ∀ id, g.ReachesRoot id → ¬g.OnCycle id := by
  have hsame := o.sameArgument_measured g
  have hwf := o.wellFormed_measured hg
  refine (Layout.exists_build_iff hwf).trans (forall_congr' fun id => ⟨?_, ?_⟩)
  · intro h hreach hcycle
    exact (h (hsame.reachesRoot hreach)).2 (hsame.onCycle hcycle)
  · intro h hreach
    refine ⟨Layout.measured_measureClaims _ _ (hwf.live_of_reachesRoot hreach), fun hcycle => ?_⟩
    exact h (hsame.symm.reachesRoot hreach) (hsame.symm.onCycle hcycle)

end RenderOptions

/-- There is no picture if the payload does not load, or if a claim that reaches a root is on a cycle. -/
theorem Canvas.exists_ofPayload_iff : (∃ c, ofPayload payload o = .ok c) ↔
    ∃ loaded g, payload.load (.empty : Graph α) = .ok (loaded, g) ∧
      ∀ id, g.ReachesRoot id → ¬g.OnCycle id := by
  constructor
  · rintro ⟨c, hc⟩
    obtain ⟨loaded, g, l, hload, hbuild, -⟩ := ofPayload_eq_ok.1 hc
    exact ⟨loaded, g, hload, (o.exists_build_measured_iff (Payload.fresh_of_load hload)).1 ⟨l, hbuild⟩⟩
  · rintro ⟨loaded, g, hload, h⟩
    obtain ⟨l, hbuild⟩ := (o.exists_build_measured_iff (Payload.fresh_of_load hload)).2 h
    exact ⟨_, ofPayload_eq_ok.2 ⟨loaded, g, l, hload, hbuild, rfl⟩⟩

/-- The graph of a picture makes the argument that was loaded. -/
theorem Canvas.sameArgument_ofPayload {loaded : Loaded} (hload : payload.load .empty = .ok (loaded, g))
    (h : ofPayload payload o = .ok c) : g.SameArgument c.graph := by
  obtain ⟨_, _, l, hload', -, rfl⟩ := ofPayload_eq_ok.1 h
  obtain ⟨rfl, rfl⟩ := Prod.mk.inj (Except.ok.inj (hload.symm.trans hload'))
  have hshown : (o.measured g).SameArgument (o.canvas.showing l (o.measured g)).graph :=
    Graph.sameArgument_moveClaims ..
  exact ((o.sameArgument_measured g).trans hshown).trans
    ((sameArgument_fitVertically ..).trans (sameArgument_draw _))

end

variable {K : Type} [Field K] [LinearOrder K] [IsStrictOrderedRing K] [FloorSemiring K] [Angles K]
  {payload : Payload} {o : RenderOptions K} {canvas : Canvas K}
  {g : Graph K} {l : Layout K} {id : ClaimId} {claim : Claim K}

theorem Rect.intersects_lowered (r s : Rect K) (dy : K) :
    (r.lowered dy).intersects (s.lowered dy) = r.intersects s := by
  have hright : ∀ r : Rect K, (r.lowered dy).right = r.right := fun _ => rfl
  have hbottom : ∀ r : Rect K, (r.lowered dy).bottom = r.bottom + dy := fun _ => add_right_comm ..
  have htop : ∀ r s : Rect K, (r.lowered dy).y < s.bottom + dy ↔ r.y < s.bottom :=
    fun _ _ => add_lt_add_iff_right dy
  simp only [intersects, Scalar.lt, hright, hbottom, htop]
  rfl

theorem Claim.rect_lowered {c : Claim K} (h : c.placement.offset = ⟨0.0, 0.0⟩) (dy : K) :
    (c.lowered dy).rect = c.rect.lowered dy := by
  simp [rect, Placement.rect, lowered, mapPlacement, Placement.moveTo, Placement.x, Placement.y, h,
    Rect.lowered, exact_zero]

theorem Claim.rect_moveTo {c : Claim K} (h : c.placement.offset = ⟨0.0, 0.0⟩) {r : Rect K}
    (hsize : c.placement.size? = some r.size) : (c.mapPlacement (·.moveTo ⟨r.x, r.y⟩)).rect = r := by
  have hmoved : (c.mapPlacement (·.moveTo ⟨r.x, r.y⟩)).placement.size? = some r.size := hsize
  rw [rect_of_size? hmoved]
  simp [mapPlacement, Placement.moveTo, Placement.x, Placement.y, h, Rect.size, exact_zero]

omit [IsStrictOrderedRing K] in
/-- Fitting moves all claims by the same distance. -/
theorem Canvas.exists_lowered_fitVertically (c : Canvas K) (padding : K) : ∃ dy, ∀ id,
    (c.fitVertically padding).graph.claim? id = (c.graph.claim? id).map (·.lowered dy) := by
  rw [fitVertically]
  cases hbounds : c.graph.bounds with
  | none => exact ⟨0, fun id => by simp [Graph.claim?_of_bounds hbounds]⟩
  | some bounds =>
      refine ⟨padding * c.style.scale - bounds.y, fun id => ?_⟩
      refine (Graph.claim?_updateAll ..).trans ?_
      congr 1
      funext claim
      rw [Claim.lowered, Claim.mapPlacement, ← add_sub_assoc, ← sub_add_eq_add_sub]

/-- How a claim of a laid out graph stands: in one of its boxes, or where it was made. -/
structure Layout.Shows (l : Layout K) (o : RenderOptions K) (id : ClaimId) (claim : Claim K) : Prop where
  offset : claim.placement.offset = ⟨0.0, 0.0⟩
  size? : claim.placement.size? = some (o.textSize claim.text)
  placed : id ∈ l.root.leaves → ∃ box ∈ l.outline, box.kind = .claim id ∧ claim.rect = box.rect
  left : id ∉ l.root.leaves → claim.rect.x = 0 ∧ claim.rect.y = 0

theorem Layout.shows_apply_measured (hg : g.Fresh)
    (hbuild : build (o.measured g) o.config.layout = .ok l)
    (hclaim : (l.apply (o.measured g)).claim? id = some claim) : l.Shows o id claim := by
  by_cases hid : id ∈ l.root.leaves
  · obtain ⟨before, last, hbefore, hlast, hsize, hmoved⟩ :=
      exists_last_box (o.wellFormed_measured hg) hbuild hid
    obtain rfl := Option.some.inj (hclaim.symm.trans hmoved)
    have hplacement := o.placement_measured hg hbefore
    have hoffset : before.placement.offset = ⟨0.0, 0.0⟩ := by rw [hplacement]; rfl
    have hbox : last ∈ l.outline ∧ last.kind = .claim id := by
      simpa using List.mem_filter.1 (List.mem_of_getLast? hlast)
    refine ⟨hoffset, ?_, fun _ => ⟨last, hbox.1, hbox.2, Claim.rect_moveTo hoffset hsize⟩, (absurd hid ·)⟩
    rw [Claim.mapPlacement, hplacement]
    rfl
  · rw [claim?_apply_of_notMem hid] at hclaim
    have hplacement := o.placement_measured hg hclaim
    refine ⟨by rw [hplacement]; rfl, by rw [hplacement]; rfl, (absurd · hid), fun _ => ?_⟩
    rw [Claim.rect, hplacement]
    simp [Placement.rect, Placement.x, Placement.y, Placement.measure, Placement.initial, exact_zero]

/-- How the claims of a picture stand: those that reach a root in boxes of an outline that is moved down as
a whole, and the others in the corner that is moved down with it. -/
structure Canvas.Shows (canvas : Canvas K) (o : RenderOptions K) (outline : Outline K) (dy : K) : Prop where
  size : ∀ {id claim}, canvas.graph.claim? id = some claim → claim.rect.size = o.textSize claim.text
  placed : ∀ {id claim}, canvas.graph.claim? id = some claim → canvas.graph.ReachesRoot id →
    ∃ box ∈ outline, box.kind = .claim id ∧ claim.rect = box.rect.lowered dy
  left : ∀ {id claim}, canvas.graph.claim? id = some claim → ¬canvas.graph.ReachesRoot id →
    claim.rect.x = 0 ∧ claim.rect.y = dy

namespace Canvas

/-- Drawing comes after measuring, so it leaves all claims where they are. -/
theorem claim?_ofPayload (h : ofPayload payload o = .ok canvas) : ∃ loaded g l dy,
    payload.load .empty = .ok (loaded, g) ∧ Layout.build (o.measured g) o.config.layout = .ok l ∧
      ∀ id, canvas.graph.claim? id = ((l.apply (o.measured g)).claim? id).map (·.lowered dy) := by
  obtain ⟨loaded, g, l, hload, hbuild, rfl⟩ := ofPayload_eq_ok.1 h
  obtain ⟨dy, hlowered⟩ :=
    exists_lowered_fitVertically (o.canvas.showing l (o.measured g)) o.config.render.padding
  refine ⟨loaded, g, l, dy, hload, hbuild, fun id => ?_⟩
  refine (claim?_draw fun claim hclaim => ?_).trans (hlowered id)
  rw [hlowered, Option.map_eq_some_iff] at hclaim
  obtain ⟨before, hbefore, rfl⟩ := hclaim
  exact Option.isSome_of_eq_some (Layout.shows_apply_measured (Payload.fresh_of_load hload) hbuild hbefore).size?

theorem exists_shows (h : ofPayload payload o = .ok canvas) : ∃ loaded g l dy,
    payload.load .empty = .ok (loaded, g) ∧ Layout.build (o.measured g) o.config.layout = .ok l ∧
      canvas.Shows o l.outline dy := by
  obtain ⟨loaded, g, l, dy, hload, hbuild, hclaims⟩ := claim?_ofPayload h
  have hg := Payload.fresh_of_load hload
  have hsame := (o.sameArgument_measured g).symm.trans (sameArgument_ofPayload hload h)
  have hreach : ∀ id, id ∈ l.root.leaves ↔ canvas.graph.ReachesRoot id := fun id =>
    ((Layout.traces_root (o.wellFormed_measured hg) hbuild).mem_iff.trans
      Graph.exists_isRootPath_iff).trans ⟨hsame.reachesRoot, hsame.symm.reachesRoot⟩
  have hshows : ∀ {id claim}, canvas.graph.claim? id = some claim → ∃ before : Claim K,
      l.Shows o id before ∧ claim = before.lowered dy ∧ claim.rect = before.rect.lowered dy := by
    intro id claim hclaim
    rw [hclaims, Option.map_eq_some_iff] at hclaim
    obtain ⟨before, hbefore, rfl⟩ := hclaim
    have hbefore := Layout.shows_apply_measured hg hbuild hbefore
    exact ⟨before, hbefore, rfl, Claim.rect_lowered hbefore.offset dy⟩
  refine ⟨loaded, g, l, dy, hload, hbuild, ?_, ?_, ?_⟩
  · intro id claim hclaim
    obtain ⟨before, hbefore, rfl, -⟩ := hshows hclaim
    rw [Claim.rect_of_size? (c := before.lowered dy) hbefore.size?]
    rfl
  · intro id claim hclaim hid
    obtain ⟨before, hbefore, -, hlowered⟩ := hshows hclaim
    obtain ⟨box, hmem, hkind, hbox⟩ := hbefore.placed ((hreach id).2 hid)
    exact ⟨box, hmem, hkind, hbox ▸ hlowered⟩
  · intro id claim hclaim hid
    obtain ⟨before, hbefore, -, hlowered⟩ := hshows hclaim
    obtain ⟨hx, hy⟩ := hbefore.left (hid ∘ (hreach id).1)
    rw [hlowered]
    exact ⟨hx, by rw [Rect.lowered, hy, zero_add]⟩

end Canvas

/-! ### Overlap -/

/-- Options under which nothing has a negative size and no room is negative. -/
structure RenderOptions.Roomy (o : RenderOptions K) : Prop where
  scale : 0 < o.config.render.scale
  claimPadding : 0 ≤ o.config.theme.claimPadding
  lineHeight : 0 ≤ o.config.theme.lineHeight
  layout : o.config.layout.Roomy

/-- A text is at least as large as the padding around it. -/
theorem RenderOptions.le_textSize (hscale : 0 ≤ o.config.render.scale) (hlineHeight : 0 ≤ o.config.theme.lineHeight)
    (lines : List String) : 2 * o.config.theme.claimPadding ≤ (o.textSize lines).width ∧
      2 * o.config.theme.claimPadding ≤ (o.textSize lines).height := by
  have hwidest := exact_zero.ge.trans (le_foldl_max (fun width => width) (0.0 : K)
    (lines.map (o.canvas.surface.measureText · ⟨"", o.style.scale * o.style.fontSize, o.style.fontFamily⟩))).1
  rw [← exact_two]
  exact ⟨le_add_of_nonneg_left (div_nonneg hwidest hscale),
    le_add_of_nonneg_left (mul_nonneg (Nat.cast_nonneg _) hlineHeight)⟩

/-- A claim is at least as large as its padding. -/
theorem RenderOptions.Roomy.le_textSize (ho : o.Roomy) (lines : List String) :
    2 * o.config.theme.claimPadding ≤ (o.textSize lines).width ∧
      2 * o.config.theme.claimPadding ≤ (o.textSize lines).height :=
  o.le_textSize ho.scale.le ho.lineHeight lines

theorem RenderOptions.Roomy.arranged (ho : o.Roomy) (hg : g.Fresh)
    (hbuild : Layout.build (o.measured g) o.config.layout = .ok l) :
    Arranged o.config.layout.gap l.outline := by
  have hspacious := Layout.spacious_root (o.wellFormed_measured hg) ho.layout ?_ hbuild
  · exact (LayoutBox.arranged_outline ho.layout.gap).1 l.root l.origin 0 hspacious
  · intro id claim size hclaim hsize
    rw [o.placement_measured hg hclaim] at hsize
    obtain rfl := Option.some.inj hsize
    have hpadding : 0 ≤ 2 * o.config.theme.claimPadding := mul_nonneg zero_le_two ho.claimPadding
    obtain ⟨hwidth, hheight⟩ := ho.le_textSize claim.text
    exact ⟨hpadding.trans hwidth, hpadding.trans hheight⟩

namespace Canvas.Shows

variable {outline : Outline K} {dy : K} (h : canvas.Shows o outline dy) {other : ClaimId} {claim' : Claim K}
  (hclaim : canvas.graph.claim? id = some claim) (hclaim' : canvas.graph.claim? other = some claim')

include h hclaim hclaim'

theorem not_intersects {gaps : Direction → K} (harranged : Arranged gaps outline) (hne : id ≠ other)
    (hreach : canvas.graph.ReachesRoot id) (hreach' : canvas.graph.ReachesRoot other) :
    claim.rect.intersects claim'.rect = false := by
  obtain ⟨box, hmem, hkind, hbox⟩ := h.placed hclaim hreach
  obtain ⟨box', hmem', hkind', hbox'⟩ := h.placed hclaim' hreach'
  rw [hbox, hbox', Rect.intersects_lowered]
  apply harranged.not_intersects_of_leaf hmem hmem'
  · rintro rfl
    exact hne (BoxKind.claim.inj (hkind.symm.trans hkind'))
  · simp [hkind]
  · simp [hkind']

theorem intersects (hleft : ¬canvas.graph.ReachesRoot id) (hleft' : ¬canvas.graph.ReachesRoot other)
    (hsize : 0 < claim.rect.width ∧ 0 < claim.rect.height)
    (hsize' : 0 < claim'.rect.width ∧ 0 < claim'.rect.height) :
    claim.rect.intersects claim'.rect = true := by
  obtain ⟨hx, hy⟩ := h.left hclaim hleft
  obtain ⟨hx', hy'⟩ := h.left hclaim' hleft'
  simp [Rect.intersects, Scalar.lt, Rect.right, Rect.bottom, hx, hy, hx', hy', hsize, hsize']

end Canvas.Shows

theorem RenderOptions.roomy_classic (measure : TextMeasure) : (classic measure : RenderOptions K).Roomy where
  scale := by norm_num [classic, Config.standard, Config.ofTheme]
  claimPadding := by norm_num [classic, Config.standard, Config.ofTheme, Theme.classic]
  lineHeight := by norm_num [classic, Config.standard, Config.ofTheme, Theme.classic]
  layout := LayoutSettings.roomy_standard

/-- Two claims, with a relation from the second to the first. -/
def Payload.supported : Payload where
  claims := [⟨.number 1, "a", false, none⟩, ⟨.number 2, "b", false, none⟩]
  relations := [⟨.number 10, [⟨"claim", .number 2⟩], ⟨"claim", .number 1⟩, some "support", false⟩]

/-- Two claims, with a relation from each to the other. -/
def Payload.reciprocal : Payload where
  claims := [⟨.number 1, "a", false, none⟩, ⟨.number 2, "b", false, none⟩]
  relations := [⟨.number 10, [⟨"claim", .number 1⟩], ⟨"claim", .number 2⟩, none, false⟩,
    ⟨.number 11, [⟨"claim", .number 2⟩], ⟨"claim", .number 1⟩, none, false⟩]

namespace Canvas

/-- A payload has a picture exactly if it loads and no claim that reaches a root is on a cycle. In the picture
the claims that reach a root do not overlap, so without cycles none do. All others are in one corner, where
those that have an extent overlap. -/
theorem claims_apart (ho : o.Roomy) (payload : Payload) :
    ((∃ canvas, ofPayload payload o = .ok canvas) ↔
      ∃ loaded g, payload.load (.empty : Graph K) = .ok (loaded, g) ∧
        ∀ id, g.ReachesRoot id → ¬g.OnCycle id) ∧
    ∀ canvas, ofPayload payload o = .ok canvas → ∀ id other claim claim', id ≠ other →
      canvas.graph.claim? id = some claim → canvas.graph.claim? other = some claim' →
      (canvas.graph.ReachesRoot id → canvas.graph.ReachesRoot other →
        claim.rect.intersects claim'.rect = false) ∧
      ((∀ c, ¬canvas.graph.OnCycle c) → claim.rect.intersects claim'.rect = false) ∧
      (¬canvas.graph.ReachesRoot id → ¬canvas.graph.ReachesRoot other →
        0 < claim.rect.width ∧ 0 < claim.rect.height → 0 < claim'.rect.width ∧ 0 < claim'.rect.height →
        claim.rect.intersects claim'.rect = true) := by
  refine ⟨exists_ofPayload_iff, ?_⟩
  intro canvas hcanvas id other claim claim' hne hclaim hclaim'
  obtain ⟨loaded, g, l, dy, hload, hbuild, hshows⟩ := exists_shows hcanvas
  have hwf := (sameArgument_ofPayload hload hcanvas).wellFormed
    (Payload.load_grows Graph.wellFormed_empty hload).1
  have happart := hshows.not_intersects hclaim hclaim' (ho.arranged (Payload.fresh_of_load hload) hbuild) hne
  refine ⟨happart, fun hacyclic => ?_, hshows.intersects hclaim hclaim'⟩
  have hreach : ∀ {id claim}, canvas.graph.claim? id = some claim → canvas.graph.ReachesRoot id :=
    fun hclaim => hwf.reachesRoot_of_acyclic hacyclic (Graph.contains_claim_iff.2 ⟨_, hclaim⟩)
  exact happart (hreach hclaim) (hreach hclaim')

theorem claims_apart_of_supported : (RenderOptions.classic .estimate : RenderOptions ℚ).Roomy ∧
    ∃ canvas claim claim', ofPayload .supported (.classic .estimate : RenderOptions ℚ) = .ok canvas ∧
      canvas.graph.claim? ⟨0⟩ = some claim ∧ canvas.graph.claim? ⟨1⟩ = some claim' ∧
      claim.rect.intersects claim'.rect = false := by
  have ho : (RenderOptions.classic .estimate : RenderOptions ℚ).Roomy := RenderOptions.roomy_classic _
  have hgraph : ((Payload.supported.load (.empty : Graph ℚ)).map fun result =>
      (result.2.claimIds, result.2.rootClaims, result.2.relations.values.map fun r => (r.source, r.target))) =
      .ok ([⟨0⟩, ⟨1⟩], [⟨0⟩], [(⟨1⟩, .claim ⟨0⟩)]) := by decide +kernel
  obtain ⟨⟨loaded, g⟩, hload, hgraph⟩ := Outcome.map_eq_ok.1 hgraph
  simp only [Prod.mk.injEq] at hgraph
  obtain ⟨hclaims, hroots, hrelations⟩ := hgraph
  have hroot : g.IsRoot ⟨0⟩ := Graph.mem_rootClaims_iff.1 (by simp [hroots])
  have hends : ∀ id r, g.relation? id = some r → g.EndsAt (.relation id) ⟨0⟩ := by
    intro id r hr
    have hmem := List.mem_map_of_mem (f := fun r : Relation => (r.source, r.target))
      (Table.mem_values_iff.2 ⟨id, hr⟩)
    rw [hrelations, List.mem_singleton] at hmem
    exact .single (.of_target hr (Prod.mk.inj hmem).2)
  have hacyclic := Graph.not_onCycle_of_endsAt hroot hends
  obtain ⟨hexists, happart⟩ := claims_apart ho .supported
  obtain ⟨canvas, hcanvas⟩ := hexists.2 ⟨loaded, g, hload, fun id _ => hacyclic id⟩
  have hsame := sameArgument_ofPayload hload hcanvas
  have hfirst : (⟨0⟩ : ClaimId) ∈ g.claimIds := by simp [hclaims]
  have hsecond : (⟨1⟩ : ClaimId) ∈ g.claimIds := by simp [hclaims]
  obtain ⟨claim, hclaim⟩ := hsame.exists_claim hfirst
  obtain ⟨claim', hclaim'⟩ := hsame.exists_claim hsecond
  have hdecided := happart canvas hcanvas ⟨0⟩ ⟨1⟩ claim claim' (by decide) hclaim hclaim'
  exact ⟨ho, canvas, claim, claim', hcanvas, hclaim, hclaim',
    hdecided.2.1 fun id hcycle => hacyclic id (hsame.symm.onCycle hcycle)⟩

/-- Of two claims that bear on each other none is a root. They are drawn, and lie on top of each other. -/
theorem exists_overlap : (RenderOptions.classic .estimate : RenderOptions ℚ).Roomy ∧
    ∃ canvas claim claim', ofPayload .reciprocal (.classic .estimate : RenderOptions ℚ) = .ok canvas ∧
      canvas.graph.claim? ⟨0⟩ = some claim ∧ canvas.graph.claim? ⟨1⟩ = some claim' ∧
      (0 < claim.rect.width ∧ 0 < claim.rect.height) ∧ (0 < claim'.rect.width ∧ 0 < claim'.rect.height) ∧
      claim.rect.intersects claim'.rect = true := by
  have ho : (RenderOptions.classic .estimate : RenderOptions ℚ).Roomy := RenderOptions.roomy_classic _
  have hgraph : ((Payload.reciprocal.load (.empty : Graph ℚ)).map fun result =>
      (result.2.claimIds, result.2.rootClaims)) = .ok ([⟨0⟩, ⟨1⟩], []) := by decide +kernel
  obtain ⟨⟨loaded, g⟩, hload, hgraph⟩ := Outcome.map_eq_ok.1 hgraph
  obtain ⟨hclaims, hroots⟩ := Prod.mk.inj hgraph
  -- The layout starts at the roots, so here it is empty, and nothing refuses the cycle.
  have hlost : ∀ id, ¬g.ReachesRoot id := by
    rintro id ⟨d, hroot, -⟩
    have hmem := Graph.mem_rootClaims_iff.2 hroot
    simp [hroots] at hmem
  have hexists := (exists_ofPayload_iff (o := .classic .estimate)).2
    ⟨loaded, g, hload, fun id hreach => absurd hreach (hlost id)⟩
  obtain ⟨canvas, hcanvas⟩ := hexists
  obtain ⟨-, -, l, dy, -, -, hshows⟩ := exists_shows hcanvas
  have hsame := sameArgument_ofPayload hload hcanvas
  have hfirst : (⟨0⟩ : ClaimId) ∈ g.claimIds := by simp [hclaims]
  have hsecond : (⟨1⟩ : ClaimId) ∈ g.claimIds := by simp [hclaims]
  obtain ⟨claim, hclaim⟩ := hsame.exists_claim hfirst
  obtain ⟨claim', hclaim'⟩ := hsame.exists_claim hsecond
  have hsize : ∀ {id claim}, canvas.graph.claim? id = some claim →
      0 < claim.rect.width ∧ 0 < claim.rect.height := by
    intro id claim hclaim
    have hpadding : 0 < 2 * (Config.standard : Config ℚ).theme.claimPadding := by
      norm_num [Config.standard, Config.ofTheme, Theme.classic]
    obtain ⟨hwidth, hheight⟩ := ho.le_textSize claim.text
    rw [← hshows.size hclaim] at hwidth hheight
    exact ⟨hpadding.trans_le hwidth, hpadding.trans_le hheight⟩
  have hreach : ∀ id, ¬canvas.graph.ReachesRoot id :=
    fun id hreach => hlost id (hsame.symm.reachesRoot hreach)
  exact ⟨ho, canvas, claim, claim', hcanvas, hclaim, hclaim', hsize hclaim, hsize hclaim',
    hshows.intersects hclaim hclaim' (hreach _) (hreach _) (hsize hclaim) (hsize hclaim')⟩

end Canvas

end ArgumentDiagram
