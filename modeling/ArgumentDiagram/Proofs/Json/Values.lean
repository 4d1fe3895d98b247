import ArgumentDiagram.Json.Record
import ArgumentDiagram.Proofs.Table

/-!
Values in documents. A value has the members of its objects in the order of their names, and what a document is read
as is such a value. Main statement: a document that has the same members as a value is read as that value, however
deep they are nested.
-/

namespace ArgumentDiagram.Json

/-- The members of all objects are the entries of a table. -/
inductive Value.Ordered : Value → Prop
  | null : Ordered .null
  | bool (b : Bool) : Ordered (.bool b)
  | int (n : Int) : Ordered (.int n)
  | float (x : Float) : Ordered (.float x)
  | text (s : String) : Ordered (.text s)
  | array {items : List Value} (h : ∀ item ∈ items, Ordered item) : Ordered (.array items)
  | object (t : Table String Value) (h : ∀ member ∈ t.entries, Ordered member.2) : Ordered (.object t.entries)

theorem Value.ordered_ofMembers {members : List (String × Value)} (h : ∀ member ∈ members, member.2.Ordered) :
    (ofMembers members).Ordered :=
  .object _ fun _ hmem => h _ (Table.mem_of_mem_entries_ofList hmem)

namespace Node

mutual

theorem ordered_of_value? : ∀ {node : Node} {value : Value}, node.value? = some value → value.Ordered
  | .null, _, h => Option.some.inj h ▸ .null
  | .bool b, _, h => Option.some.inj h ▸ .bool b
  | .int n, _, h => Option.some.inj h ▸ .int n
  | .float x, _, h => Option.some.inj h ▸ .float x
  | .text s, _, h => Option.some.inj h ▸ .text s
  | .unreadable, _, h => nomatch h
  | .array items, _, h => by
      obtain ⟨values, hvalues, rfl⟩ := Option.map_eq_some_iff.1 h
      exact .array (ordered_of_valuesOf? hvalues)
  | .object members, _, h => by
      obtain ⟨values, hvalues, rfl⟩ := Option.map_eq_some_iff.1 h
      exact Value.ordered_ofMembers (ordered_of_membersOf? hvalues)

theorem ordered_of_valuesOf? : ∀ {items : List Node} {values : List Value}, valuesOf? items = some values →
    ∀ value ∈ values, value.Ordered
  | [], _, h => Option.some.inj h ▸ List.forall_mem_nil _
  | item :: rest, _, h => by
      simp only [valuesOf?, Option.bind_eq_bind, Option.bind_eq_some_iff] at h
      obtain ⟨value, hvalue, values, hvalues, h⟩ := h
      obtain rfl := Option.some.inj h
      exact List.forall_mem_cons.2 ⟨ordered_of_value? hvalue, ordered_of_valuesOf? hvalues⟩

theorem ordered_of_membersOf? : ∀ {members : List (Option String × Node)} {found : List (String × Value)},
    membersOf? members = some found → ∀ member ∈ found, member.2.Ordered
  | [], _, h => Option.some.inj h ▸ List.forall_mem_nil _
  | (name, item) :: rest, _, h => by
      simp only [membersOf?, Option.bind_eq_bind, Option.bind_eq_some_iff] at h
      obtain ⟨name, -, value, hvalue, found, hfound, h⟩ := h
      obtain rfl := Option.some.inj h
      exact List.forall_mem_cons.2 ⟨ordered_of_value? hvalue, ordered_of_membersOf? hfound⟩

end

variable {members : List (Option String × Node)} {found : List (String × Value)}

/-- Under each name the values stand in the order of the document. -/
theorem valuesAt_of_membersOf? (h : membersOf? members = some found) (name : String) :
    Table.valuesAt name found = (named name members).filterMap value? := by
  induction members generalizing found with
  | nil =>
      obtain rfl := Option.some.inj h
      rfl
  | cons member rest ih =>
      obtain ⟨written, item⟩ := member
      simp only [membersOf?, Option.bind_eq_bind, Option.bind_eq_some_iff] at h
      obtain ⟨first, rfl, value, hvalue, others, hothers, h⟩ := h
      obtain rfl := Option.some.inj h
      rw [Table.valuesAt_cons, ih hothers, named, named]
      by_cases hname : first = name <;> simp [hname, hvalue]

/-- No member is left out. -/
theorem valuesAt_eq_nil_iff (h : membersOf? members = some found) (name : String) :
    Table.valuesAt name found = [] ↔ ∀ item, (some name, item) ∉ members := by
  induction members generalizing found with
  | nil =>
      obtain rfl := Option.some.inj h
      simp [Table.valuesAt]
  | cons member rest ih =>
      obtain ⟨written, item⟩ := member
      simp only [membersOf?, Option.bind_eq_bind, Option.bind_eq_some_iff] at h
      obtain ⟨first, rfl, value, hvalue, others, hothers, h⟩ := h
      obtain rfl := Option.some.inj h
      rw [Table.valuesAt_cons]
      split
      next hname =>
        exact iff_of_false (List.cons_ne_nil _ _) fun hnone => hnone item (hname ▸ List.mem_cons_self)
      next hname => simp [Ne.symm hname, ih hothers]

end Node

/-! ### The document of a value -/

namespace Value

mutual

/-- The document that a value is written as. -/
def node : Value → Node
  | .null => .null
  | .bool b => .bool b
  | .int n => .int n
  | .float x => .float x
  | .text s => .text s
  | .array items => .array (nodesOf items)
  | .object members => .object (nodesOfMembers members)

def nodesOf : List Value → List Node
  | [] => []
  | item :: rest => item.node :: nodesOf rest

def nodesOfMembers : List (String × Value) → List (Option String × Node)
  | [] => []
  | (name, item) :: rest => (some name, item.node) :: nodesOfMembers rest

end

theorem valuesOf?_nodesOf {items : List Value} (h : ∀ item ∈ items, item.node.value? = some item) :
    Node.valuesOf? (nodesOf items) = some items := by
  induction items with
  | nil => rfl
  | cons item rest ih =>
      obtain ⟨hfirst, hrest⟩ := List.forall_mem_cons.1 h
      rw [nodesOf, Node.valuesOf?, hfirst, ih hrest]
      rfl

theorem membersOf?_nodesOfMembers {members : List (String × Value)}
    (h : ∀ member ∈ members, member.2.node.value? = some member.2) :
    Node.membersOf? (nodesOfMembers members) = some members := by
  induction members with
  | nil => rfl
  | cons member rest ih =>
      obtain ⟨name, item⟩ := member
      obtain ⟨hfirst, hrest⟩ := List.forall_mem_cons.1 h
      rw [nodesOfMembers, Node.membersOf?, hfirst, ih hrest]
      rfl

/-- A value is read from its document. -/
theorem Ordered.value?_node {value : Value} (h : value.Ordered) : value.node.value? = some value := by
  induction h with
  | array h ih => rw [node, Node.value?, valuesOf?_nodesOf ih, Option.map_some]
  | object t h ih =>
      rw [node, Node.value?, membersOf?_nodesOfMembers ih, Option.map_some, ofMembers, Table.ofList_entries]
  | _ => rfl

end Value

end ArgumentDiagram.Json
