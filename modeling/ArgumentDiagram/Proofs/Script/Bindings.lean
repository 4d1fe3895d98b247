import ArgumentDiagram.Proofs.Graph.Loading
import Mathlib.Data.List.Induction

/-!
What the variables of a script stand for. Whether a statement can be loaded, and why it is refused if it cannot,
only depends on the statements before it: on what its names were last given to.
-/

namespace ArgumentDiagram

/-- What a variable can stand for. -/
inductive Role where
  | claim
  | relation
deriving DecidableEq

def Entity.role : Entity → Role
  | .claim _ => .claim
  | .relation _ => .relation

namespace Script

section Latest

variable {β γ : Type}

/-- What a name was last given to. Some are named without being given to anything. -/
def latest (given : List (String × Option β)) (name : String) : Option β :=
  given.reverse.findSome? fun (other, meaning) => if other = name then meaning else none

theorem latest_append_singleton (given : List (String × Option β)) (other : String) (meaning : Option β)
    (name : String) : latest (given ++ [(other, meaning)]) name =
      (if other = name then meaning else none).or (latest given name) := by
  rw [latest, List.reverse_append, List.reverse_singleton, List.singleton_append, List.findSome?_cons]
  dsimp only
  cases (if other = name then meaning else none : Option β) <;> rfl

theorem latest_map (f : β → γ) (given : List (String × Option β)) (name : String) :
    latest (given.map fun (other, meaning) => (other, meaning.map f)) name = (latest given name).map f := by
  induction given using List.reverseRecOn with
  | nil => rfl
  | append_singleton given last ih =>
      obtain ⟨other, meaning⟩ := last
      rw [List.map_append, List.map_singleton, latest_append_singleton, latest_append_singleton, ih, Option.map_or]
      split <;> rfl

end Latest

/-- What a statement gives its variable to. A relation without sources adds nothing to give it to. -/
def gives? (s : Statement) : Option Role :=
  match s.kind with
  | .claim _ => some .claim
  | .relation [] _ _ => none
  | .relation (_ :: _) _ _ => some .relation

/-- What a variable stands for after some statements. -/
def role? (before : Script) : String → Option Role := latest (before.map fun s => (s.name, gives? s))

/-- What a statement relates was given to something before, and the sources to claims. -/
def Resolves (before : Script) (s : Statement) : Prop :=
  match s.kind with
  | .claim _ => True
  | .relation sources _ target =>
    (∀ name ∈ sources, role? before name = some .claim) ∧ role? before target ≠ none

instance (before : Script) (s : Statement) : Decidable (Resolves before s) :=
  match s with
  | ⟨_, _, _, .claim _⟩ => inferInstanceAs (Decidable True)
  | ⟨_, _, _, .relation sources _ target⟩ => inferInstanceAs
      (Decidable ((∀ name ∈ sources, role? before name = some .claim) ∧ role? before target ≠ none))

/-- Why a name cannot be a source. -/
inductive Unfit (before : Script) (name : String) : GraphError → Prop
  | unknown (h : role? before name = none) : Unfit before name (.unknownVariable name)
  | relation (h : role? before name = some .relation) : Unfit before name (.relationAsSource name)

/-- Why a statement is refused: because of the first of its sources that cannot be one, or else its target. -/
inductive Refused (before : Script) (s : Statement) : GraphError → Prop
  | source {first last : List String} {name target : String} {kind : RelationKind} {cause : GraphError}
      (hs : s.kind = .relation (first ++ name :: last) kind target)
      (hfirst : ∀ other ∈ first, role? before other = some .claim) (hname : Unfit before name cause) :
      Refused before s cause
  | target {sources : List String} {target : String} {kind : RelationKind}
      (hs : s.kind = .relation sources kind target)
      (hsources : ∀ name ∈ sources, role? before name = some .claim) (htarget : role? before target = none) :
      Refused before s (.unknownVariable target)

/-- Every statement of a script can rely on those before it. -/
def Sound (script : Script) : Prop := ∀ before s after, script = before ++ s :: after → Resolves before s

variable {before script : Script} {s : Statement} {cause : GraphError} {name : String}

theorem Unfit.role_ne (h : Unfit before name cause) : role? before name ≠ some .claim := by
  cases h with
  | unknown h => simp [h]
  | relation h => simp [h]

/-- Nothing that is refused could be relied on. -/
theorem Refused.not_resolves (h : Refused before s cause) : ¬Resolves before s := by
  rw [Resolves]
  cases h with
  | source hs _ hname =>
      rw [hs]
      exact fun hresolves => hname.role_ne (hresolves.1 _ (by simp))
  | target hs _ htarget =>
      rw [hs]
      exact fun hresolves => hresolves.2 htarget

/-- Scripts only use names, so no handle is ever at fault. -/
theorem Refused.names_variable (h : Refused before s cause) :
    ∃ name, cause = .unknownVariable name ∨ cause = .relationAsSource name := by
  cases h with
  | source _ _ hname => cases hname <;> simp
  | target => simp

/-- What holds of every member and those before it, holds of a list with one more if it holds of that one. -/
theorem forall_split_append_singleton {β : Type} {P : List β → β → Prop} {items : List β} {last : β} :
    (∀ before item after, items ++ [last] = before ++ item :: after → P before item) ↔
      (∀ before item after, items = before ++ item :: after → P before item) ∧ P items last := by
  constructor
  · intro h
    refine ⟨fun before item after hitems => h before item (after ++ [last]) ?_, h items last [] rfl⟩
    rw [hitems, List.append_assoc, List.cons_append]
  · rintro ⟨h, hlast⟩ before item after hitems
    cases after using List.reverseRecOn with
    | nil =>
        obtain ⟨rfl, hitem⟩ := List.append_inj' hitems rfl
        obtain rfl := List.singleton_inj.1 hitem
        exact hlast
    | append_singleton after other =>
        rw [← List.cons_append, ← List.append_assoc] at hitems
        obtain ⟨rfl, -⟩ := List.append_inj' hitems rfl
        exact h before item after rfl

theorem sound_nil : Sound [] := fun before s after h => by simp at h

theorem sound_append_singleton : Sound (before ++ [s]) ↔ Sound before ∧ Resolves before s :=
  forall_split_append_singleton

theorem sound_iff_getElem :
    Sound script ↔ ∀ i, (h : i < script.length) → Resolves (script.take i) script[i] := by
  constructor
  · intro h i hi
    refine h _ _ (script.drop (i + 1)) ?_
    rw [List.getElem_cons_drop, List.take_append_drop]
  · rintro h before s after rfl
    have := h before.length (by simp)
    simpa using this

instance (script : Script) : Decidable script.Sound := decidable_of_iff' _ sound_iff_getElem

/-! ### The variables at hand -/

/-- Variables stand for what some statements gave them to. -/
def Agrees (before : Script) (vars : Variables) : Prop :=
  ∀ name, (vars.get? name).map Entity.role = role? before name

section Find

variable {vars : Variables} {entity : Entity} {id : ClaimId} {e : GraphError}

theorem find_eq_ok : vars.find name = .ok entity ↔ vars.get? name = some entity := by
  rw [Variables.find]
  cases vars.get? name <;> simp

theorem find_eq_error : vars.find name = .error e ↔ vars.get? name = none ∧ e = .unknownVariable name := by
  rw [Variables.find]
  cases vars.get? name <;> simp [eq_comm]

theorem source_eq_ok : vars.source name = .ok id ↔ vars.get? name = some (.claim id) := by
  rw [Variables.source, Outcome.bind_eq_ok]
  simp only [find_eq_ok]
  constructor
  · rintro ⟨entity, hget, h⟩
    cases entity with
    | claim other => exact hget.trans (congrArg (some ∘ Entity.claim) (Except.ok.inj h))
    | relation other => cases h
  · intro hget
    exact ⟨_, hget, rfl⟩

theorem Agrees.role_claim (h : Agrees before vars) (hget : vars.get? name = some (.claim id)) :
    role? before name = some .claim := by
  rw [← h name, hget]
  rfl

theorem Agrees.role_eq_none (h : Agrees before vars) : role? before name = none ↔ vars.get? name = none := by
  rw [← h name, Option.map_eq_none_iff]

theorem unfit_of_source (h : Agrees before vars) (hsource : vars.source name = .error e) : Unfit before name e := by
  rw [Variables.source, Outcome.bind_eq_error] at hsource
  rcases hsource with hsource | ⟨entity, hfind, hsource⟩
  · obtain ⟨hnone, rfl⟩ := find_eq_error.1 hsource
    exact .unknown (h.role_eq_none.2 hnone)
  · cases entity with
    | claim id => cases hsource
    | relation id =>
        obtain rfl := Except.error.inj hsource
        refine .relation ?_
        rw [← h name, find_eq_ok.1 hfind]
        rfl

end Find

section Bind

variable {α : Type} [Scalar α] {g g' : Graph α} {vars vars' : Variables} {sources : List String}
  {kind : RelationKind} {target : String}

theorem bind_claim {text : String} (hs : s.kind = .claim text) : bind s g vars =
    .ok ((g.addClaim text (metadataOf s)).2, vars.insert s.name (.claim (g.addClaim text (metadataOf s)).1)) := by
  rw [bind, hs]

/-- A relation is added between what its names stand for. -/
theorem bind_relation_eq_ok (hs : s.kind = .relation sources kind target) : bind s g vars = .ok (g', vars') ↔
    ∃ claims entity added, List.Forall₂ (fun name id => vars.get? name = some (.claim id)) sources claims ∧
      vars.get? target = some entity ∧ g.addRelation claims entity (some kind) (metadataOf s) = .ok (added, g') ∧
      vars' = added.elim vars fun id => vars.insert s.name (.relation id) := by
  rw [bind, hs]
  simp only [Outcome.bind_eq_ok, Outcome.mapM_eq_ok, source_eq_ok, find_eq_ok]
  refine exists_congr fun claims => ?_
  constructor
  · rintro ⟨hclaims, entity, hentity, ⟨added, graph⟩, hadd, hresult⟩
    refine ⟨entity, added, hclaims, hentity, ?_⟩
    cases added <;> obtain ⟨rfl, rfl⟩ := Prod.mk.inj (Except.ok.inj hresult) <;> exact ⟨hadd, rfl⟩
  · rintro ⟨entity, added, hclaims, hentity, hadd, rfl⟩
    exact ⟨hclaims, entity, hentity, (added, g'), hadd, by cases added <;> rfl⟩

theorem resolves_of_bind (h : Agrees before vars) (hbind : bind s g vars = .ok (g', vars')) : Resolves before s := by
  rw [Resolves]
  cases hs : s.kind with
  | claim text => trivial
  | relation sources kind target =>
      obtain ⟨claims, entity, added, hclaims, hentity, -, -⟩ := (bind_relation_eq_ok hs).1 hbind
      refine ⟨fun name hname => ?_, fun hnone => ?_⟩
      · obtain ⟨id, -, hget⟩ := Outcome.exists_of_forall₂ hclaims hname
        exact h.role_claim hget
      · cases hentity.symm.trans (h.role_eq_none.1 hnone)

/-- What stands for live entities is never refused by the graph, so only names can be at fault. -/
theorem refused_of_bind (h : Agrees before vars) (hlive : Live g vars) {e : GraphError}
    (hbind : bind s g vars = .error e) : Refused before s e := by
  cases hs : s.kind with
  | claim text =>
      rw [bind_claim hs] at hbind
      cases hbind
  | relation sources kind target =>
      rw [bind, hs] at hbind
      simp only [Outcome.bind_eq_error, Outcome.mapM_eq_ok, source_eq_ok, find_eq_ok, find_eq_error] at hbind
      rcases hbind with hsource | ⟨claims, hclaims, ⟨hnone, rfl⟩ | ⟨entity, hentity, hadd⟩⟩
      · obtain ⟨first, name, last, rfl, hfirst, hname⟩ := Outcome.mapM_eq_error.1 hsource
        refine .source hs (fun other hother => ?_) (unfit_of_source h hname)
        obtain ⟨id, hid⟩ := hfirst other hother
        exact h.role_claim (source_eq_ok.1 hid)
      · refine .target hs (fun name hname => ?_) (h.role_eq_none.2 hnone)
        obtain ⟨id, -, hget⟩ := Outcome.exists_of_forall₂ hclaims hname
        exact h.role_claim hget
      · have hsources : ∀ id ∈ claims, g.contains (.claim id) := fun id hid => by
          obtain ⟨name, -, hget⟩ := Outcome.exists_of_forall₂ hclaims.flip hid
          exact hlive hget
        obtain ⟨added, g', hok⟩ := Graph.exists_addRelation hsources (hlive hentity) (some kind) (metadataOf s)
        rw [hok] at hadd
        rcases hadd with hadd | ⟨_, hadd, hresult⟩
        · cases hadd
        · obtain rfl := Except.ok.inj hadd
          cases added <;> cases hresult

end Bind

end Script

end ArgumentDiagram
