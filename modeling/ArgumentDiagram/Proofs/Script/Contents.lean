import ArgumentDiagram.Proofs.Payload.Contents
import ArgumentDiagram.Proofs.Script.Bindings

/-!
What a script adds. Each statement adds a part under handles that follow on each other, and the parts are all
that is new. Main statement: a script loads exactly if each of its statements can rely on those before it,
then the graph holds what the statements say, and else the first of them that cannot is reported and the graph
stays as it is.
-/

open List (Forall₂)

namespace ArgumentDiagram.Script

/-- The handles of what stands for a statement, and the one that its variable is given to. -/
structure Part where
  claims : List ClaimId
  relations : List RelationId
  given : Option Entity

/-- What a variable stands for after some statements, with the parts that stand for them. -/
def standsFor (made : List (Statement × Part)) : String → Option Entity :=
  latest (made.map fun (s, part) => (s.name, part.given))

/-- What a statement says is noted along with what stands for it. -/
structure Carries (metadata : Metadata) (s : Statement) : Prop where
  assumption : metadata.assumption = s.assumption
  variableName : metadata.extra.get? "variable" = some (.text s.name)

theorem carries_metadataOf (s : Statement) : Carries (metadataOf s) s :=
  ⟨rfl, (Table.get?_insert ..).trans (if_pos rfl)⟩

variable {α : Type} [Scalar α] {g g' g₀ : Graph α} {names : String → Option Entity} {s : Statement} {part : Part}
  {vars vars' : Variables} {made : List (Statement × Part)} {script : Script}

/-- What stands for a statement, by what its names stand for: a claim, or a relation from one source, or for several
a plain claim that joins them, neutral relations into it in the order of the sources, and a relation from it. A
relation without sources adds nothing. -/
inductive AddedFor (g : Graph α) (names : String → Option Entity) (s : Statement) : Part → Prop
  | claim {text : String} {id : ClaimId} :
      s.kind = .claim text → g.claim? id = some (.create id text (metadataOf s)) →
      AddedFor g names s ⟨[id], [], some (.claim id)⟩
  | nothing {kind : RelationKind} {target : String} :
      s.kind = .relation [] kind target → AddedFor g names s ⟨[], [], none⟩
  | single {name target : String} {kind : RelationKind} {source : ClaimId} {entity : Entity} {id : RelationId} :
      s.kind = .relation [name] kind target → names name = some (.claim source) → names target = some entity →
      g.relation? id = some ⟨id, source, entity, some kind, metadataOf s⟩ →
      AddedFor g names s ⟨[], [id], some (.relation id)⟩
  | joined {sources : List String} {target : String} {kind : RelationKind} {claims : List ClaimId} {entity : Entity}
      {joint : ClaimId} {feeders : List RelationId} {id : RelationId} :
      s.kind = .relation sources kind target → 2 ≤ sources.length →
      Forall₂ (fun name source => names name = some (.claim source)) sources claims → names target = some entity →
      g.claim? joint = some (.create joint Graph.joinText .plain) →
      Forall₂ (fun feeder source => g.relation? feeder = some ⟨feeder, source, .claim joint, none, metadataOf s⟩)
        feeders claims →
      g.relation? id = some ⟨id, joint, entity, some kind, { metadataOf s with merged := true }⟩ →
      AddedFor g names s ⟨[joint], feeders ++ [id], some (.relation id)⟩

theorem AddedFor.mono (hgrows : g.Grows g') (h : AddedFor g names s part) : AddedFor g' names s part := by
  cases h with
  | claim hs hc => exact .claim hs (hgrows.claim? hc)
  | nothing hs => exact .nothing hs
  | single hs hsource htarget hr => exact .single hs hsource htarget (hgrows.relation? hr)
  | joined hs hlength hsources htarget hjoint hfeeders hr =>
      exact .joined hs hlength hsources htarget (hgrows.claim? hjoint) (hfeeders.imp fun _ _ => hgrows.relation?)
        (hgrows.relation? hr)

theorem AddedFor.live (h : AddedFor g names s part) :
    (∀ id ∈ part.claims, g.contains (.claim id)) ∧ ∀ id ∈ part.relations, g.contains (.relation id) := by
  cases h with
  | claim _ hc => simpa using Graph.contains_claim_iff.2 ⟨_, hc⟩
  | nothing => simp
  | single _ _ _ hr => simpa using Graph.contains_relation_iff.2 ⟨_, hr⟩
  | joined _ _ _ _ hjoint hfeeders hr =>
      refine ⟨by simpa using Graph.contains_claim_iff.2 ⟨_, hjoint⟩, fun id hid => ?_⟩
      rcases List.mem_append.1 hid with hid | hid
      · obtain ⟨_, -, hr⟩ := Outcome.exists_of_forall₂ hfeeders hid
        exact Graph.contains_relation_iff.2 ⟨_, hr⟩
      · obtain rfl := List.mem_singleton.1 hid
        exact Graph.contains_relation_iff.2 ⟨_, hr⟩

/-- A statement gives its variable to what it is said to. -/
theorem AddedFor.role (h : AddedFor g names s part) : part.given.map Entity.role = gives? s := by
  cases h with
  | claim hs | nothing hs | single hs => simp only [gives?, hs]; rfl
  | joined hs hlength =>
      obtain ⟨first, rest, rfl⟩ := List.exists_cons_of_length_pos (Nat.lt_of_lt_of_le Nat.zero_lt_two hlength)
      simp only [gives?, hs]
      rfl

/-- All that a statement adds is marked with what it says, but for the claim that joins sources. -/
theorem AddedFor.carries (h : AddedFor g names s part) :
    (∀ id ∈ part.relations, ∃ r, g.relation? id = some r ∧ Carries r.metadata s) ∧
    ∀ id ∈ part.claims, ∃ c, g.claim? id = some c ∧
      if gives? s = some .claim then Carries c.metadata s else c.metadata = .plain := by
  have hcarries := carries_metadataOf s
  have hrole := h.role
  cases h with
  | claim _ hc => exact ⟨by simp, by simpa [← hrole, hc, Claim.create, Entity.role] using hcarries⟩
  | nothing => simp
  | single _ _ _ hr => exact ⟨by simpa [hr] using hcarries, by simp⟩
  | joined _ _ _ _ hjoint hfeeders hr =>
      refine ⟨fun id hid => ?_, ?_⟩
      · rcases List.mem_append.1 hid with hid | hid
        · obtain ⟨_, -, hr⟩ := Outcome.exists_of_forall₂ hfeeders hid
          exact ⟨_, hr, hcarries⟩
        · obtain rfl := List.mem_singleton.1 hid
          exact ⟨_, hr, hcarries.assumption, hcarries.variableName⟩
      · simp [← hrole, hjoint, Claim.create, Entity.role]

/-- A statement that is loaded adds its part, and its variable is given to what the part says. -/
theorem addedFor_bind (hg : g.WellFormed) (hbind : bind s g vars = .ok (g', vars')) :
    ∃ given, AddedFor g' vars.get? s ⟨g.claimsSince g', g.relationsSince g', given⟩ ∧
      ∀ name, vars'.get? name = (if s.name = name then given else none).or (vars.get? name) := by
  have hinsert : ∀ entity name, (vars.insert s.name entity).get? name =
      (if s.name = name then some entity else none).or (vars.get? name) := by
    intro entity name
    rw [Table.get?_insert]
    by_cases h : name = s.name
    · subst h
      simp
    · simp [h, Ne.symm h]
  cases hs : s.kind with
  | claim text =>
      rw [bind_claim hs] at hbind
      obtain ⟨rfl, rfl⟩ := Prod.mk.inj (Except.ok.inj hbind)
      rw [Graph.claimsSince_addClaim, Graph.relationsSince_addClaim]
      refine ⟨_, .claim hs ?_, hinsert _⟩
      rw [Graph.claim?_addClaim, if_pos rfl]
  | relation sources kind target =>
      obtain ⟨claims, entity, added, hclaims, hentity, hadd, rfl⟩ := (bind_relation_eq_ok hs).1 hbind
      rcases Graph.addRelation_cases hadd with ⟨rfl, rfl, rfl⟩ | ⟨source, rfl, -, -, rfl, rfl⟩ |
        ⟨hmany, hlive, -, rfl, rfl⟩
      · obtain rfl := List.forall₂_nil_right_iff.1 hclaims
        rw [Graph.claimsSince_self, Graph.relationsSince_self]
        exact ⟨none, .nothing hs, fun name => by simp⟩
      · obtain ⟨name, _, hsource, hnil, rfl⟩ := List.forall₂_cons_right_iff.1 hclaims
        obtain rfl := List.forall₂_nil_right_iff.1 hnil
        rw [Graph.claimsSince_pushRelation, Graph.relationsSince_pushRelation]
        refine ⟨_, .single hs hsource hentity ?_, hinsert _⟩
        rw [Graph.relation?_pushRelation, if_pos rfl]
      · obtain ⟨joint, feeders, hjoints, hrelations, hjoint, hfeeders, hlast⟩ :=
          Graph.added_pushJoined hg hlive (some kind) (metadataOf s) rfl
        rw [hjoints, hrelations]
        exact ⟨_, .joined hs (hclaims.length_eq ▸ hmany) hclaims hentity hjoint hfeeders hlast, hinsert _⟩

/-- A graph and variables that some statements, with the parts that stand for them, have made of a graph. -/
structure Made (g₀ : Graph α) (made : List (Statement × Part)) (g : Graph α) (vars : Variables) : Prop where
  wellFormed : g.WellFormed
  grows : g₀.Grows g
  live : Live g vars
  sound : Sound (made.map (·.1))
  added : ∀ before item after, made = before ++ item :: after → AddedFor g (standsFor before) item.1 item.2
  names : vars.get? = standsFor made
  claims : made.flatMap (·.2.claims) = g₀.claimsSince g
  relations : made.flatMap (·.2.relations) = g₀.relationsSince g

theorem made_nil (hg : g.WellFormed) : Made g [] g .empty where
  wellFormed := hg
  grows := .refl g
  live hget := by simp at hget
  sound := sound_nil
  added before item after h := by simp at h
  names := rfl
  claims := (Graph.claimsSince_self g).symm
  relations := (Graph.relationsSince_self g).symm

theorem standsFor_append_singleton (made : List (Statement × Part)) (s : Statement) (part : Part) (name : String) :
    standsFor (made ++ [(s, part)]) name = (if s.name = name then part.given else none).or (standsFor made name) := by
  rw [standsFor, List.map_append, List.map_singleton, latest_append_singleton]
  rfl

namespace Made

/-- What a variable stands for has the role that the statements alone say it has. -/
theorem agrees (h : Made g₀ made g vars) : Agrees (made.map (·.1)) vars := by
  intro name
  rw [h.names, standsFor, ← latest_map, role?, List.map_map, List.map_map]
  -- Both look up the same list, as a part gives its variable to what the statement alone says.
  congr 1
  refine List.map_congr_left fun item hitem => ?_
  obtain ⟨before, after, hsplit⟩ := List.append_of_mem hitem
  simp only [Function.comp_apply, (h.added before item after hsplit).role]

theorem bind (h : Made g₀ made g vars) (hbind : bind s g vars = .ok (g', vars')) :
    ∃ part, Made g₀ (made ++ [(s, part)]) g' vars' := by
  obtain ⟨hwf, hgrows, hlive⟩ := bind_grows h.wellFormed h.live hbind
  obtain ⟨given, hadded, hnames⟩ := addedFor_bind h.wellFormed hbind
  refine ⟨⟨g.claimsSince g', g.relationsSince g', given⟩, hwf, h.grows.trans hgrows, hlive, ?_, ?_, ?_, ?_, ?_⟩
  · rw [List.map_append, List.map_singleton, sound_append_singleton]
    exact ⟨h.sound, resolves_of_bind h.agrees hbind⟩
  · -- The parts so far are kept as the graph grows, and the new one is about what its names stand for now.
    rw [forall_split_append_singleton (P := fun before item => AddedFor g' (standsFor before) item.1 item.2),
      ← h.names]
    exact ⟨fun before item after hsplit => (h.added before item after hsplit).mono hgrows, hadded⟩
  · funext name
    rw [hnames, standsFor_append_singleton, h.names]
  · rw [List.flatMap_append, h.claims, List.flatMap_singleton, h.grows.claimsSince_append hgrows.toLater]
  · rw [List.flatMap_append, h.relations, List.flatMap_singleton, h.grows.relationsSince_append hgrows.toLater]

theorem loadFrom (h : Made g₀ made g vars) (hload : loadFrom script g vars = .ok (g', vars')) :
    ∃ more, more.map (·.1) = made.map (·.1) ++ script ∧ Made g₀ more g' vars' := by
  induction script generalizing made g vars with
  | nil =>
      obtain ⟨rfl, rfl⟩ := Prod.mk.inj (Except.ok.inj hload)
      exact ⟨made, by simp, h⟩
  | cons s rest ih =>
      rw [Script.loadFrom] at hload
      split at hload
      next g₁ vars₁ hbind =>
        obtain ⟨part, hpart⟩ := h.bind hbind
        obtain ⟨more, hmore, hmade⟩ := ih hpart hload
        exact ⟨more, by simpa using hmore, hmade⟩
      next => cases hload

/-- The first statement that cannot rely on those before it is reported. -/
theorem refused (h : Made g₀ made g vars) {e : GraphError} (hload : Script.loadFrom script g vars = .error e) :
    ∃ before s after cause, script = before ++ s :: after ∧ Sound (made.map (·.1) ++ before) ∧
      Refused (made.map (·.1) ++ before) s cause ∧ e = .script s.line cause := by
  induction script generalizing made g vars with
  | nil => cases hload
  | cons s rest ih =>
      rw [Script.loadFrom] at hload
      split at hload
      next g₁ vars₁ hbind =>
        obtain ⟨part, hpart⟩ := h.bind hbind
        obtain ⟨before, s', after, cause, rfl, hsound, hrefused, he⟩ := ih hpart hload
        exact ⟨s :: before, s', after, cause, rfl, by simpa using hsound, by simpa using hrefused, he⟩
      next cause hbind =>
        refine ⟨[], s, rest, cause, rfl, ?_, ?_, (Except.error.inj hload).symm⟩
        · simpa using h.sound
        · simpa using refused_of_bind h.agrees h.live hbind

end Made

/-! ### The whole script -/

/-- A graph after a script was loaded into it. -/
structure LoadedInto (script : Script) (g : Graph α) (vars : Variables) (g' : Graph α) : Prop where
  /-- All that was there is as it was. -/
  grows : g.Grows g'
  /-- The statements share out the new handles among them. What a statement says is about what its names stood for
  then, and a variable stands for what the last statement about it gave it to. -/
  parts : ∃ made : List (Statement × Part),
    made.map (·.1) = script ∧
    (∀ before s part after, made = before ++ (s, part) :: after → AddedFor g' (standsFor before) s part) ∧
    (∀ s part, (s, part) ∈ made →
      (∀ id ∈ part.relations, ∃ r, g'.relation? id = some r ∧ Carries r.metadata s) ∧
      ∀ id ∈ part.claims, ∃ c, g'.claim? id = some c ∧
        if gives? s = some .claim then Carries c.metadata s else c.metadata = .plain) ∧
    (∀ name, vars.get? name = standsFor made name) ∧
    made.flatMap (·.2.claims) = g.claimsSince g' ∧
    made.flatMap (·.2.relations) = g.relationsSince g'
  variables_live : ∀ {name entity}, vars.get? name = some entity → g'.contains entity
  claim_live : ∀ id, g'.contains (.claim id) ↔ g.contains (.claim id) ∨ id ∈ g.claimsSince g'
  relation_live : ∀ id, g'.contains (.relation id) ↔ g.contains (.relation id) ∨ id ∈ g.relationsSince g'

theorem Made.loadedInto (h : Made g made g' vars) : LoadedInto (made.map (·.1)) g vars g' := by
  have hadded : ∀ before s part after, made = before ++ (s, part) :: after → AddedFor g' (standsFor before) s part :=
    fun before s part after hsplit => h.added before (s, part) after hsplit
  have hmem : ∀ {s part}, (s, part) ∈ made → ∃ before, AddedFor g' (standsFor before) s part := by
    intro s part hitem
    obtain ⟨before, after, hsplit⟩ := List.append_of_mem hitem
    exact ⟨before, hadded _ _ _ _ hsplit⟩
  refine ⟨h.grows, ⟨made, rfl, hadded, fun s part hitem => ?_, fun name => by rw [h.names], h.claims, h.relations⟩,
    h.live, h.grows.live_claim_iff h.wellFormed fun id hid => ?_,
    h.grows.live_relation_iff h.wellFormed fun id hid => ?_⟩
  · obtain ⟨before, hpart⟩ := hmem hitem
    exact hpart.carries
  · rw [← h.claims, List.mem_flatMap] at hid
    obtain ⟨⟨s, part⟩, hitem, hid⟩ := hid
    obtain ⟨before, hpart⟩ := hmem hitem
    exact hpart.live.1 id hid
  · rw [← h.relations, List.mem_flatMap] at hid
    obtain ⟨⟨s, part⟩, hitem, hid⟩ := hid
    obtain ⟨before, hpart⟩ := hmem hitem
    exact hpart.live.2 id hid

/-- A script loads exactly if each of its statements can rely on those before it. Then the graph is as before but
for what the script says. Else the first statement that cannot is reported, by its line, along with the first name
in it that is at fault, and the graph is as before. -/
theorem script_load_verdict (hg : g.Reachable) (script : Script) :
    ((∃ result, script.load g = .ok result) ↔ script.Sound) ∧
    (∀ e, script.load g = .error e →
      (∃ before s after cause, script = before ++ s :: after ∧ before.Sound ∧ Refused before s cause ∧
        e = .script s.line cause ∧ (∀ absence id, cause ≠ .invalidSource absence id) ∧
        ∀ absence entity, cause ≠ .invalidTarget absence entity) ∧
      (g.perform (.loadScript script)).2 = g) ∧
    ∀ vars g', script.load g = .ok (vars, g') → script.LoadedInto g vars g' := by
  have hstart := made_nil hg.wellFormed
  refine ⟨⟨?_, fun hsound => ?_⟩, fun e hload => ⟨?_, ?_⟩, fun vars g' hload => ?_⟩
  · rintro ⟨⟨vars, g'⟩, hload⟩
    obtain ⟨made, rfl, h⟩ := hstart.loadFrom (load_eq_ok.1 hload)
    exact h.sound
  · cases hload : script.load g with
    | ok result => exact ⟨result, rfl⟩
    | error e =>
        obtain ⟨before, s, after, cause, hsplit, -, hrefused, -⟩ := hstart.refused (load_eq_error.1 hload)
        exact absurd (hsound before s after hsplit) hrefused.not_resolves
  · obtain ⟨before, s, after, cause, hsplit, hsound, hrefused, he⟩ := hstart.refused (load_eq_error.1 hload)
    refine ⟨before, s, after, cause, hsplit, hsound, hrefused, he, ?_, ?_⟩ <;>
      obtain ⟨name, rfl | rfl⟩ := hrefused.names_variable <;> simp
  · rw [Graph.perform, hload]
  · obtain ⟨made, rfl, h⟩ := hstart.loadFrom (load_eq_ok.1 hload)
    exact h.loadedInto

/-- Two claims support one of them together, and then its variable is given to a relation. -/
def rebinding : Script :=
  [⟨1, "a", false, .claim "A"⟩, ⟨2, "b", true, .claim "B"⟩, ⟨4, "x", true, .relation ["b", "a"] .support "a"⟩,
    ⟨5, "a", false, .relation ["b"] .attack "x"⟩]

/-- The graph already holds a claim. After the statements that load, the variable is no source any more. -/
theorem script_load_verdict_of_rebinding :
    (Graph.empty.after [.addClaim "z" .plain] : Graph Float32).Reachable ∧
    (∃ vars g', rebinding.load (Graph.empty.after [.addClaim "z" .plain] : Graph Float32) = .ok (vars, g') ∧
      rebinding.LoadedInto (Graph.empty.after [.addClaim "z" .plain]) vars g') ∧
    ¬∃ result, load (rebinding ++ [⟨7, "y", false, .relation ["a"] .support "b"⟩])
      (Graph.empty.after [.addClaim "z" .plain] : Graph Float32) = .ok result := by
  have hg : (Graph.empty.after [.addClaim "z" .plain] : Graph Float32).Reachable := ⟨_, rfl⟩
  obtain ⟨hloads, -, hcontents⟩ := script_load_verdict hg rebinding
  obtain ⟨⟨vars, g'⟩, hload⟩ := hloads.2 (by decide)
  refine ⟨hg, ⟨vars, g', hload, hcontents vars g' hload⟩, fun hmore => ?_⟩
  have hsound := (script_load_verdict hg _).1.1 hmore
  revert hsound
  decide

end ArgumentDiagram.Script
