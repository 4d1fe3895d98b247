import ArgumentDiagram.Graph.Metadata
import ArgumentDiagram.Proofs.Json.Values

/-!
Notes in documents. Three of them have a name and a form of their own, and each of these may be given once;
all others share what is left of the object, where the last one of a name counts. Main statement: metadata is
read again from the object that it is written as, and so is whatever an object was read as, with all of its
further members.
-/

namespace ArgumentDiagram.Metadata

open Json

variable {m : Metadata} {name : String} {members : List (String × Value)}

/-- A flag that is left out is not set. -/
inductive SaysFlag : List Value → Bool → Prop
  | absent : SaysFlag [] false
  | given (b : Bool) : SaysFlag [.bool b] b

/-- A scope that is left out or null is none. -/
inductive SaysScope : List Value → Option String → Prop
  | absent : SaysScope [] none
  | null : SaysScope [.null] none
  | given (s : String) : SaysScope [.text s] (some s)

/-- Metadata has what is given under each name. -/
structure Notes (m : Metadata) (given : String → List Value) : Prop where
  assumption : SaysFlag (given "assumption") m.assumption
  scope : SaysScope (given "scope") m.scope
  merged : SaysFlag (given "merged") m.merged
  extra : ∀ name, m.extra.get? name = if name ∈ knownNames then none else (given name).getLast?

/-- What is given once at most. -/
def once? : List Value → Option (Option Value)
  | [] => some none
  | [value] => some (some value)
  | _ => none

theorem note?_eq (members : List (String × Value)) (name : String) :
    note? members name = once? (Table.valuesAt name members) := by
  rw [note?, Table.valuesAt]
  generalize members.filter (·.1 = name) = found
  rcases found with _ | ⟨⟨_, value⟩, _ | ⟨_, _⟩⟩ <;> rfl

theorem saysFlag_iff {values : List Value} {b : Bool} :
    SaysFlag values b ↔ ∃ found, once? values = some found ∧ flag? found = some b := by
  rw [← Option.bind_eq_some_iff]
  rcases values with _ | ⟨value, _ | ⟨_, _⟩⟩
  · exact ⟨by rintro ⟨⟩; rfl, fun h => Option.some.inj h ▸ .absent⟩
  · cases value with
    | bool b => exact ⟨by rintro ⟨⟩; rfl, fun h => Option.some.inj h ▸ .given b⟩
    | _ => exact ⟨nofun, nofun⟩
  · exact ⟨nofun, nofun⟩

theorem saysScope_iff {values : List Value} {scope : Option String} :
    SaysScope values scope ↔ ∃ found, once? values = some found ∧ scope? found = some scope := by
  rw [← Option.bind_eq_some_iff]
  rcases values with _ | ⟨value, _ | ⟨_, _⟩⟩
  · exact ⟨by rintro ⟨⟩; rfl, fun h => Option.some.inj h ▸ .absent⟩
  · cases value with
    | null => exact ⟨by rintro ⟨⟩; rfl, fun h => Option.some.inj h ▸ .null⟩
    | text s => exact ⟨by rintro ⟨⟩; rfl, fun h => Option.some.inj h ▸ .given s⟩
    | _ => exact ⟨nofun, nofun⟩
  · exact ⟨nofun, nofun⟩

/-- The further notes are those of all other names. -/
theorem get?_further (members : List (String × Value)) (name : String) :
    (Table.ofList (members.filter fun member => !knownNames.contains member.1)).get? name =
      if name ∈ knownNames then none else (Table.valuesAt name members).getLast? := by
  rw [Table.get?_ofList, Table.valuesAt, Table.valuesAt, List.filter_filter]
  split
  next hknown =>
    rw [List.filter_eq_nil_iff.2, List.map_nil, List.getLast?_nil]
    rintro ⟨other, value⟩ -
    simp only [Bool.and_eq_true, decide_eq_true_eq, not_and]
    rintro rfl
    simpa using hknown
  next hknown =>
    congr 2
    refine List.filter_congr fun member _ => ?_
    by_cases hname : member.1 = name
    · simp [hname, hknown]
    · simp [hname]

theorem ofMembers?_eq_some : ofMembers? members = some m ↔ m.Notes (Table.valuesAt · members) := by
  simp only [ofMembers?, Option.bind_eq_bind, Option.bind_eq_some_iff, note?_eq]
  constructor
  · rintro ⟨a, ha, assumption, hassumption, s, hs, scope, hscope, j, hj, merged, hmerged, h⟩
    obtain rfl := Option.some.inj h
    exact ⟨saysFlag_iff.2 ⟨a, ha, hassumption⟩, saysScope_iff.2 ⟨s, hs, hscope⟩, saysFlag_iff.2 ⟨j, hj, hmerged⟩,
      get?_further members⟩
  · intro h
    obtain ⟨a, ha, hassumption⟩ := saysFlag_iff.1 h.assumption
    obtain ⟨s, hs, hscope⟩ := saysScope_iff.1 h.scope
    obtain ⟨j, hj, hmerged⟩ := saysFlag_iff.1 h.merged
    have hextra : .ofList (members.filter fun member => !knownNames.contains member.1) = m.extra :=
      Table.ext_get? fun name => (get?_further members name).trans (h.extra name).symm
    refine ⟨a, ha, _, hassumption, s, hs, _, hscope, j, hj, _, hmerged, ?_⟩
    rw [hextra]
    rfl

/-- The metadata that a value holds. -/
def ofValue? : Value → Option Metadata
  | .object members => ofMembers? members
  | _ => none

/-- The metadata that a document holds. -/
def ofNode? : Node → Option Metadata
  | .object members => (Node.membersOf? members).bind ofMembers?
  | _ => none

theorem ofText?_eq (text : String) : ofText? text = (Strict.dialect.document text).bind fun node =>
    if Strict.mostDepth < node.depth then none else ofNode? node := by
  rw [ofText?]
  refine bind_congr fun node => ?_
  cases node <;> dsimp only <;> split <;> rfl

theorem notes_of_ofNode? {members : List (Option String × Node)} (h : ofNode? (.object members) = some m) :
    m.Notes fun name => (Node.named name members).filterMap Node.value? := by
  obtain ⟨found, hfound, hm⟩ := Option.bind_eq_some_iff.1 h
  simp only [← Node.valuesAt_of_membersOf? hfound]
  exact ofMembers?_eq_some.1 hm

/-! ### Writing -/

/-- The object that metadata is written as. -/
def value (m : Metadata) : Value := .ofMembers m.members

/-- The document that the text of metadata holds, where the notes with a form of their own come first. -/
def node (m : Metadata) : Node := .object (Value.nodesOfMembers m.members)

/-- The further notes have further names. -/
def Apart (m : Metadata) : Prop := ∀ name ∈ knownNames, m.extra.contains name = false

/-- Besides, the values of further notes are in order, as all values are that come from documents. -/
structure Proper (m : Metadata) : Prop where
  apart : m.Apart
  ordered : ∀ note ∈ m.extra.entries, note.2.Ordered

theorem valuesAt_members (m : Metadata) (name : String) : Table.valuesAt name m.members =
    (if "assumption" = name then [.bool m.assumption] else []) ++
      (if "scope" = name then (m.scope.map Value.text).toList else []) ++
        (if "merged" = name ∧ m.merged then [.bool true] else []) ++ (m.extra.get? name).toList := by
  have hscope : Table.valuesAt name (m.scope.map fun scope => ("scope", Value.text scope)).toList =
      if "scope" = name then (m.scope.map Value.text).toList else [] := by
    cases m.scope with
    | none => simp [Table.valuesAt]
    | some s => exact Table.valuesAt_singleton ..
  have hmerged : Table.valuesAt name (if m.merged then [("merged", Value.bool true)] else []) =
      if "merged" = name ∧ m.merged then [Value.bool true] else [] := by
    cases m.merged with
    | false => simp [Table.valuesAt]
    | true => simp [Table.valuesAt_singleton]
  rw [members, Table.valuesAt_append, Table.valuesAt_append, Table.valuesAt_append, Table.valuesAt_singleton, hscope,
    hmerged, Table.valuesAt_entries]

theorem Apart.notes (h : m.Apart) : m.Notes (Table.valuesAt · m.members) := by
  have hapart : ∀ name ∈ knownNames, m.extra.get? name = none := by
    intro name hname
    simpa [Table.contains_eq_isSome] using h name hname
  constructor
  case assumption =>
    have hvalues : Table.valuesAt "assumption" m.members = [.bool m.assumption] := by
      simp [valuesAt_members, hapart "assumption" (by simp [knownNames])]
    exact hvalues ▸ .given m.assumption
  case scope =>
    have hvalues : Table.valuesAt "scope" m.members = (m.scope.map Value.text).toList := by
      simp [valuesAt_members, hapart "scope" (by simp [knownNames])]
    rw [hvalues]
    cases m.scope with
    | none => exact .absent
    | some s => exact .given s
  case merged =>
    have hvalues : Table.valuesAt "merged" m.members = if m.merged then [.bool true] else [] := by
      simp [valuesAt_members, hapart "merged" (by simp [knownNames])]
    rw [hvalues]
    cases m.merged with
    | false => exact .absent
    | true => exact .given true
  case extra =>
    intro name
    split
    next hknown => exact hapart name hknown
    next hknown =>
      have hvalues : Table.valuesAt name m.members = (m.extra.get? name).toList := by
        simp only [knownNames, List.mem_cons, List.not_mem_nil, or_false, not_or] at hknown
        simp [valuesAt_members, Ne.symm hknown.1, Ne.symm hknown.2.1, Ne.symm hknown.2.2]
      rw [hvalues]
      cases m.extra.get? name <;> rfl

theorem SaysFlag.last {values : List Value} {b : Bool} (h : SaysFlag values b) :
    SaysFlag values.getLast?.toList b := by
  cases h with
  | absent => exact .absent
  | given b => exact .given b

theorem SaysScope.last {values : List Value} {scope : Option String} (h : SaysScope values scope) :
    SaysScope values.getLast?.toList scope := by
  cases h with
  | absent => exact .absent
  | null => exact .null
  | given s => exact .given s

/-- All but the last value of each name can be left out. -/
theorem Notes.last {given : String → List Value} (h : m.Notes given) :
    m.Notes fun name => (given name).getLast?.toList where
  assumption := h.assumption.last
  scope := h.scope.last
  merged := h.merged.last
  extra name := by
    rw [h.extra]
    cases (given name).getLast? <;> rfl

theorem Proper.ordered_members (h : m.Proper) : ∀ note ∈ m.members, note.2.Ordered := by
  intro note hmem
  rw [members, List.mem_append, List.mem_append, List.mem_append] at hmem
  rcases hmem with ((hmem | hmem) | hmem) | hmem
  · obtain rfl := List.mem_singleton.1 hmem
    exact .bool _
  · obtain ⟨s, -, rfl⟩ := Option.map_eq_some_iff.1 (Option.mem_toList.1 hmem)
    exact .text s
  · split at hmem
    · obtain rfl := List.mem_singleton.1 hmem
      exact .bool _
    · cases hmem
  · exact h.ordered note hmem

/-- Any members that give the same notes are read as the same metadata. -/
theorem ofNode?_of_notes {members : List (String × Value)} (hordered : ∀ note ∈ members, note.2.Ordered)
    (h : m.Notes (Table.valuesAt · members)) : ofNode? (.object (Value.nodesOfMembers members)) = some m := by
  rw [ofNode?, Value.membersOf?_nodesOfMembers fun note hmem => (hordered note hmem).value?_node, Option.bind_some]
  exact ofMembers?_eq_some.2 h

theorem Proper.ofNode?_node (h : m.Proper) : ofNode? m.node = some m :=
  ofNode?_of_notes h.ordered_members h.apart.notes

theorem Apart.notes_value (h : m.Apart) : m.Notes (Table.valuesAt · (Table.ofList m.members).entries) := by
  simp only [Table.valuesAt_entries, Table.get?_ofList]
  exact h.notes.last

theorem Proper.ofNode?_value (h : m.Proper) : ofNode? m.value.node = some m :=
  ofNode?_of_notes (fun note hmem => h.ordered_members note (Table.mem_of_mem_entries_ofList hmem))
    h.apart.notes_value

theorem proper_of_ofNode? {node : Node} (h : ofNode? node = some m) : m.Proper := by
  cases node with
  | object members =>
      obtain ⟨found, hfound, hm⟩ := Option.bind_eq_some_iff.1 h
      have hnotes := ofMembers?_eq_some.1 hm
      constructor
      case apart =>
        intro name hname
        rw [Table.contains_eq_isSome, hnotes.extra, if_pos hname]
        rfl
      case ordered =>
        rintro ⟨name, value⟩ hmem
        have hget := Table.get?_eq_some_iff.2 hmem
        rw [hnotes.extra, Option.ite_none_left_eq_some] at hget
        exact Node.ordered_of_membersOf? hfound _ (Table.mem_valuesAt.1 (List.mem_of_getLast? hget.2))
  | _ => cases h

/-- What is read keeps the names of all members but those with a form of their own. -/
theorem contains_extra_iff {members : List (Option String × Node)} (h : ofNode? (.object members) = some m)
    (name : String) : m.extra.contains name = true ↔ name ∉ knownNames ∧ ∃ item, (some name, item) ∈ members := by
  obtain ⟨found, hfound, hm⟩ := Option.bind_eq_some_iff.1 h
  rw [Table.contains_eq_isSome, (ofMembers?_eq_some.1 hm).extra]
  split
  next hknown => simp [hknown]
  next hknown =>
    rw [List.getLast?_isSome, ne_eq, Node.valuesAt_eq_nil_iff hfound]
    simp [hknown]

/-- **Metadata is read again from what it is written as.** Its further notes may hold anything, as long as
none of them has the name of a note with a form of its own: then the same metadata is read from the value that
it is written as, and from any document of it, where the members stand in the order of a value or in that of a
text. The other way round, what is read from an object has the notes that its members give, with the last one
of each further name, and it comes back from what it is written as. -/
theorem reads_what_is_written (m : Metadata) :
    (m.Apart → ofValue? m.value = some m) ∧
    (m.Proper → ofNode? m.value.node = some m ∧ ofNode? m.node = some m) ∧
    ∀ members, ofNode? (.object members) = some m →
      m.Notes (fun name => (Node.named name members).filterMap Node.value?) ∧
      (∀ name, m.extra.contains name = true ↔ name ∉ knownNames ∧ ∃ item, (some name, item) ∈ members) ∧
      ofNode? m.value.node = some m ∧ ofNode? m.node = some m := by
  refine ⟨fun h => ofMembers?_eq_some.2 h.notes_value, fun h => ⟨h.ofNode?_value, h.ofNode?_node⟩,
    fun members h => ?_⟩
  have hproper := proper_of_ofNode? h
  exact ⟨notes_of_ofNode? h, contains_extra_iff h, hproper.ofNode?_value, hproper.ofNode?_node⟩

/-- Members out of order, a scope that is null, a weight that is given twice, and further notes with notes of their
own. -/
theorem reads_what_is_written_of_nested :
    let members : List (Option String × Node) :=
      [(some "weight", .int 1), (some "scope", .null), (some "merged", .bool true),
        (some "weight", .object [(some "unit", .text "kg"), (some "scope", .array [.null, .object []])])]
    let m : Metadata := ⟨false, none, true,
      .ofList [("weight", .object [("scope", .array [.null, .object []]), ("unit", .text "kg")])]⟩
    ofNode? (.object members) = some m ∧ m.Proper ∧ ofValue? m.value = some m ∧ m.extra.contains "weight" = true ∧
      ofNode? m.value.node = some m ∧ ofNode? m.node = some m := by
  intro members m
  have hread : ofNode? (.object members) = some m := by rfl
  have hproper := proper_of_ofNode? hread
  obtain ⟨hvalue, hnodes, hobject⟩ := reads_what_is_written m
  obtain ⟨-, hextra, -⟩ := hobject members hread
  have hweight : m.extra.contains "weight" = true := (hextra "weight").2 ⟨by decide, _, List.mem_cons_self⟩
  exact ⟨hread, hproper, hvalue hproper.apart, hweight, hnodes hproper⟩

end ArgumentDiagram.Metadata
