import Mathlib
import ArgumentDiagram.Payload.Basic
import ArgumentDiagram.Proofs.Outcome

/-!
Payloads in documents. Main statement: what a document with a `data` member is read as. If the member holds a
payload, then as that one. If it does not, then what stands beside it is read, which may be nothing.
-/

open List (Forall₂)

namespace ArgumentDiagram

namespace Json

variable {fields : List String} {least : Nat} {node : Node} {r : Record} {β : Type} {name : String}
  {read : Node → Option β}

/-- The fields of a record: those of an object, of which none stands twice, or the items of an array in their
order. -/
inductive Node.IsRecord (fields : List String) (least : Nat) : Node → Record → Prop
  | object {members : List (Option String × Node)} : (∀ member ∈ members, member.1.isSome) →
      (∀ name ∈ fields, (named name members).length ≤ 1) →
      IsRecord fields least (.object members) fun name => (named name members).head?
  | array {items : List Node} : least ≤ items.length → items.length ≤ fields.length →
      IsRecord fields least (.array items) fun name => (fields.zip items).lookup name

theorem Node.record?_eq_some : node.record? fields least = some r ↔ node.IsRecord fields least r := by
  constructor
  · intro h
    cases node with
    | object members =>
        simp only [record?, Bool.and_eq_true, List.all_eq_true, decide_eq_true_eq, Option.ite_none_right_eq_some,
          Option.some.injEq] at h
        obtain ⟨⟨hnames, honce⟩, rfl⟩ := h
        exact .object hnames honce
    | array items =>
        simp only [record?, Option.ite_none_right_eq_some, Option.some.injEq] at h
        obtain ⟨⟨hleast, hmost⟩, rfl⟩ := h
        exact .array hleast hmost
    | _ => cases h
  · rintro (⟨hnames, honce⟩ | ⟨hleast, hmost⟩)
    · simpa [record?] using ⟨fun name item hmem => hnames _ hmem, honce⟩
    · simp [record?, hleast, hmost]

theorem Node.named_of_membersOf? {members : List (Option String × Node)} (h : (membersOf? members).isSome) :
    ∀ member ∈ members, member.1.isSome := by
  induction members with
  | nil => exact List.forall_mem_nil _
  | cons member rest ih =>
      obtain ⟨name, item⟩ := member
      simp only [membersOf?, Option.bind_eq_bind, Option.isSome_bind, Option.any_eq_true] at h
      obtain ⟨_, rfl, _, -, _, hrest, -⟩ := h
      exact List.forall_mem_cons.2 ⟨rfl, ih (by rw [hrest]; rfl)⟩

theorem mapM_eq_some {items : List Node} {found : List β} :
    items.mapM read = some found ↔ Forall₂ (fun item b => read item = some b) items found := by
  induction items generalizing found with
  | nil => simp [eq_comm]
  | cons item rest ih =>
      simp only [List.mapM_cons, Option.bind_eq_bind, Option.bind_eq_some_iff, ih, List.forall₂_cons_left_iff]
      constructor
      · rintro ⟨b, hb, bs, hbs, hfound⟩
        exact ⟨b, bs, hb, hbs, (Option.some.inj hfound).symm⟩
      · rintro ⟨b, bs, hb, hbs, rfl⟩
        exact ⟨b, hb, bs, hbs, rfl⟩

theorem Node.asList?_eq_some {found : List β} : node.asList? read = some found ↔
    ∃ items, node = .array items ∧ Forall₂ (fun item b => read item = some b) items found := by
  cases node <;> simp [asList?, asItems?, mapM_eq_some]

/-- A field lists things that can be read, or is left out. -/
def Record.Lists (r : Record) (name : String) (read : Node → Option β) (found : List β) : Prop :=
  r name = none ∧ found = [] ∨
    ∃ items, r name = some (.array items) ∧ Forall₂ (fun item b => read item = some b) items found

theorem Record.lists_iff {found : List β} :
    r.withDefault name [] (Node.asList? read) = some found ↔ r.Lists name read found := by
  rw [withDefault, Lists]
  cases r name with
  | none => simp [eq_comm]
  | some node => simp [Node.asList?_eq_some]

theorem Record.Lists.exists_read {found : List β} (h : r.Lists name read found) {items : List Node} {item : Node}
    (hitems : r name = some (.array items)) (hitem : item ∈ items) : ∃ b, read item = some b := by
  obtain ⟨hnone, -⟩ | ⟨others, hothers, hread⟩ := h
  · simp [hitems] at hnone
  · obtain rfl := Node.array.inj (Option.some.inj (hitems.symm.trans hothers))
    obtain ⟨b, -, hb⟩ := Outcome.exists_of_forall₂ hread hitem
    exact ⟨b, hb⟩

end Json

open Json

namespace Payload

variable {node : Node} {members : List (Option String × Node)} {p : Payload} {text : String}

/-- What the fields of a payload say. -/
structure Spelled (r : Record) (p : Payload) : Prop where
  claims : r.Lists "claims" ClaimEntry.ofNode? p.claims
  relations : r.Lists "relations" RelationEntry.ofNode? p.relations

/-- A node holds a payload. -/
def Holds (node : Node) (p : Payload) : Prop := ∃ r, node.IsRecord ["claims", "relations"] 0 r ∧ Spelled r p

theorem ofNode?_eq_some : ofNode? node = some p ↔ Holds node p := by
  simp only [ofNode?, Option.bind_eq_bind, Option.bind_eq_some_iff, Node.record?_eq_some, Record.lists_iff]
  constructor
  · rintro ⟨r, hr, claims, hclaims, relations, hrelations, hp⟩
    obtain rfl := Option.some.inj hp
    exact ⟨r, hr, hclaims, hrelations⟩
  · rintro ⟨r, hr, hclaims, hrelations⟩
    exact ⟨r, hr, _, hclaims, _, hrelations, rfl⟩

/-- The only `data` member of an object holds a payload. -/
def Wraps (members : List (Option String × Node)) (p : Payload) : Prop :=
  ∃ data, Node.named "data" members = [data] ∧ Holds data p

/-- A document says a payload: the one in its `data` member, or else the document itself. -/
def Says : Node → Payload → Prop
  | .object members, p => Wraps members p ∨ (∀ q, ¬Wraps members q) ∧ Holds (.object members) p
  | node, p => Holds node p

theorem wrapped?_eq_some : wrapped? (.object members) = some p ↔ Wraps members p := by
  simp only [wrapped?, Wraps, ← ofNode?_eq_some]
  split
  next data hdata => simp [hdata]
  next hmany => exact ⟨nofun, fun ⟨data, hdata, _⟩ => absurd hdata (hmany data)⟩

theorem ofDocument?_eq_some : ofDocument? node = some p ↔ Says node p := by
  have hor : ofDocument? node = (wrapped? node).or (ofNode? node) := by
    rw [ofDocument?]
    cases wrapped? node <;> rfl
  rw [hor, Option.or_eq_some_iff]
  cases node with
  | object members => simp only [Says, Option.eq_none_iff_forall_ne_some, ne_eq, wrapped?_eq_some, ofNode?_eq_some]
  | _ => simp [Says, wrapped?, ofNode?_eq_some]

/-- An object has no member of a name. -/
def Lacks (name : String) (node : Node) : Prop := ∃ members, node = .object members ∧ Node.named name members = []

theorem Lacks.required_eq_none {fields : List String} {least : Nat} {r : Record} {name : String} {β : Type}
    (h : Lacks name node) (hr : node.record? fields least = some r) (read : Node → Option β) :
    r.required name read = none := by
  obtain ⟨members, rfl, hnone⟩ := h
  cases Node.record?_eq_some.1 hr
  simp [Record.required, hnone]

theorem Lacks.claim (h : Lacks "text" node) : ClaimEntry.ofNode? node = none := by
  rw [ClaimEntry.ofNode?]
  cases hr : node.record? ["id", "text", "assumption", "scope"] 2 with
  | none => rfl
  | some r => simp [h.required_eq_none hr]

theorem Lacks.relation (h : Lacks "target" node) : RelationEntry.ofNode? node = none := by
  rw [RelationEntry.ofNode?]
  cases hr : node.record? ["id", "sources", "target", "type", "assumption"] 3 with
  | none => rfl
  | some r => simp [h.required_eq_none hr]

/-- Data with a claim without text or a relation without target. -/
def Incomplete (members : List (Option String × Node)) : Prop :=
  ∃ fields items item, Node.named "data" members = [.object fields] ∧ item ∈ items ∧
    (Node.named "claims" fields = [.array items] ∧ Lacks "text" item ∨
      Node.named "relations" fields = [.array items] ∧ Lacks "target" item)

theorem Incomplete.not_wraps (h : Incomplete members) : ¬Wraps members p := by
  obtain ⟨fields, items, item, hdata, hitem, hlacks⟩ := h
  rintro ⟨data, hwrapped, r, hr, hspelled⟩
  rw [hdata] at hwrapped
  obtain rfl := (List.cons.inj hwrapped).1
  have hfield : ∀ {name}, Node.named name fields = [.array items] → r name = some (.array items) := by
    intro name hnamed
    cases hr
    simp [hnamed]
  obtain ⟨hnamed, hlacks⟩ | ⟨hnamed, hlacks⟩ := hlacks
  · obtain ⟨entry, hentry⟩ := hspelled.claims.exists_read (hfield hnamed) hitem
    simp [hlacks.claim] at hentry
  · obtain ⟨entry, hentry⟩ := hspelled.relations.exists_read (hfield hnamed) hitem
    simp [hlacks.relation] at hentry

/-! ### Texts -/

/-- The document that a text holds by the strict rules. -/
def strict? (text : String) : Option Node :=
  (Strict.dialect.document text).filter fun node => node.value?.isSome ∧ node.depth ≤ Strict.mostDepth

/-- The document that a text holds by the relaxed rules. -/
def relaxed? (text : String) : Option Node := (Relaxed.dialect.document text).filter fun node => node.value?.isSome

/-- The document that a text holds, by the strict rules if it can be. -/
def document? (text : String) : Option Node := (strict? text).or (relaxed? text)

theorem ofText?_eq (text : String) :
    ofText? text = ((strict? text).bind ofDocument?).or ((relaxed? text).bind ofDocument?) := by
  have hstrict : ofStrict? text = (strict? text).bind ofDocument? := by
    rw [ofStrict?, strict?]
    cases Strict.dialect.document text with
    | none => rfl
    | some node =>
        cases hvalue : node.value? with
        | none => simp [Option.filter_some, hvalue]
        | some value =>
            rcases Nat.lt_or_ge Strict.mostDepth node.depth with hdeep | hflat
            · simp [Option.filter_some, hvalue, hdeep, Nat.not_le_of_lt hdeep]
            · simp [Option.filter_some, hvalue, hflat, Nat.not_lt_of_ge hflat]
  have hrelaxed : ofRelaxed? text = (relaxed? text).bind ofDocument? := by
    rw [ofRelaxed?, relaxed?]
    cases Relaxed.dialect.document text with
    | none => rfl
    | some node => cases hvalue : node.value? <;> simp [Option.filter_some, hvalue]
  rw [ofText?, hstrict, hrelaxed]
  cases (strict? text).bind ofDocument? <;> rfl

theorem named_of_document? (h : document? text = some (.object members)) : ∀ member ∈ members, member.1.isSome := by
  have hvalue : (Node.object members).value?.isSome := by
    obtain hstrict | ⟨-, hrelaxed⟩ := Option.or_eq_some_iff.1 h
    · simpa using (of_decide_eq_true (Option.filter_eq_some_iff.1 hstrict).2).1
    · exact (Option.filter_eq_some_iff.1 hrelaxed).2
  rw [Node.value?, Option.isSome_map] at hvalue
  exact Node.named_of_membersOf? hvalue

/-- With nothing beside it, a document without data holds the payload with nothing in it. -/
theorem holds_nothing (hnames : ∀ member ∈ members, member.1.isSome) (hclaims : Node.named "claims" members = [])
    (hrelations : Node.named "relations" members = []) : Holds (.object members) ⟨[], []⟩ := by
  refine ⟨_, .object hnames fun name hname => ?_, .inl ⟨?_, rfl⟩, .inl ⟨?_, rfl⟩⟩
  · rcases List.mem_pair.1 hname with rfl | rfl
    · simp [hclaims]
    · simp [hrelations]
  · simp [hclaims]
  · simp [hrelations]

/-- A document is read as what it says, and if it says no payload, by the relaxed rules. -/
theorem ofText?_eq_some (htext : document? text = some node) : ofText? text = some p ↔
    Says node p ∨ (∀ q, ¬Says node q) ∧ ∃ other, relaxed? text = some other ∧ Says other p := by
  rw [ofText?_eq, Option.or_eq_some_iff]
  obtain hstrict | ⟨hstrict, hrelaxed⟩ := Option.or_eq_some_iff.1 htext
  · simp only [hstrict, Option.bind_some, ofDocument?_eq_some, Option.eq_none_iff_forall_ne_some, ne_eq,
      Option.bind_eq_some_iff]
  · simp only [hstrict, hrelaxed, Option.bind_none, Option.bind_some, ofDocument?_eq_some]
    constructor
    · rintro (h | ⟨-, h⟩)
      · cases h
      · exact .inl h
    · rintro (h | ⟨hsilent, other, hother, h⟩)
      · exact .inr ⟨trivial, h⟩
      · obtain rfl := Option.some.inj hother
        exact absurd h (hsilent p)

/-- A document that is an object is read as the payload in its only `data` member. If there is none, as in data that
is incomplete, then it is read as what stands beside the data, which may be nothing; only what is malformed
beside it too is left to the relaxed rules, or is refused. -/
theorem reads_data_or_beside (htext : document? text = some (.object members)) :
    (∀ p, ofText? text = some p ↔ Wraps members p ∨ (∀ q, ¬Wraps members q) ∧
      (Holds (.object members) p ∨ (∀ q, ¬Holds (.object members) q) ∧
        ∃ other, relaxed? text = some other ∧ Says other p)) ∧
    (Incomplete members → ∀ p, ¬Wraps members p) ∧
    ((∀ p, ¬Wraps members p) → Node.named "claims" members = [] → Node.named "relations" members = [] →
      ofText? text = some ⟨[], []⟩) := by
  have hreads : ∀ p, ofText? text = some p ↔ Wraps members p ∨ (∀ q, ¬Wraps members q) ∧
      (Holds (.object members) p ∨ (∀ q, ¬Holds (.object members) q) ∧
        ∃ other, relaxed? text = some other ∧ Says other p) := by
    intro p
    rw [ofText?_eq_some htext]
    by_cases hwraps : ∃ q, Wraps members q
    · have hsome : ¬∀ q, ¬Wraps members q := not_forall_not.2 hwraps
      simp [Says, hsome]
    · have hnone := not_exists.1 hwraps
      have hbare : ∀ q, Says (.object members) q ↔ Holds (.object members) q := fun q => by simp [Says, hnone]
      simp only [hbare, hnone, false_or, not_false_eq_true, implies_true, true_and]
  refine ⟨hreads, fun hincomplete _ => hincomplete.not_wraps, fun hnone hclaims hrelations => ?_⟩
  exact (hreads _).2 (.inr ⟨hnone, .inl (holds_nothing (named_of_document? htext) hclaims hrelations)⟩)

/-- Data with a relation that has no target. -/
def targetless : List (Option String × Node) :=
  [(some "data", .object [(some "relations", .array [.object [(some "id", .int 1)]])])]

theorem reads_data_or_beside_of_targetless :
    document? r#"{"data": {"relations": [{"id": 1}]}}"# = some (.object targetless) ∧ Incomplete targetless ∧
    ofText? r#"{"data": {"relations": [{"id": 1}]}}"# = some ⟨[], []⟩ := by
  have htext : document? r#"{"data": {"relations": [{"id": 1}]}}"# = some (.object targetless) := by cbv
  have hincomplete : Incomplete targetless :=
    ⟨_, _, _, rfl, List.mem_singleton_self _, .inr ⟨rfl, _, rfl, rfl⟩⟩
  obtain ⟨-, hnone, hempty⟩ := reads_data_or_beside htext
  exact ⟨htext, hincomplete, hempty (hnone hincomplete) rfl rfl⟩

/-- A claim without text is refused if it stands in the document itself, and overlooked in its data. -/
theorem exists_data_overlooked :
    (∃ data, document? r#"{"data": {"claims": [{"id": 1}]}}"# = some (.object [(some "data", data)]) ∧
      ofNode? data = none) ∧
    ofText? r#"{"data": {"claims": [{"id": 1}]}}"# = some ⟨[], []⟩ ∧
    ofText? r#"{"claims": [{"id": 1}]}"# = none := by
  refine ⟨⟨.object [(some "claims", .array [.object [(some "id", .int 1)]])], ?_, ?_⟩, ?_, ?_⟩ <;> cbv

end Payload

end ArgumentDiagram
