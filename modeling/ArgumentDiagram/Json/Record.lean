import ArgumentDiagram.Json.Node

/-!
Records in documents: objects with known members, or arrays that list the fields in their order.
-/

namespace ArgumentDiagram.Json

/-- The fields found in a record. -/
abbrev Record := String → Option Node

namespace Node

/-- The members of an object with a name. -/
def named (name : String) (members : List (Option String × Node)) : List Node :=
  (members.filter (·.1 = some name)).map (·.2)

/-- The record that a node holds. No field may be given twice, and unknown members are passed over. An array
must give the first `least` fields, and no more than there are. -/
def record? (fields : List String) (least : Nat) : Node → Option Record
  | .object members =>
    if members.all (·.1.isSome) && fields.all fun name => (named name members).length ≤ 1 then
      some fun name => (named name members).head?
    else none
  | .array items =>
    if least ≤ items.length ∧ items.length ≤ fields.length then
      some fun name => (fields.zip items).lookup name
    else none
  | _ => none

def asBool? : Node → Option Bool
  | .bool b => some b
  | _ => none

def asText? : Node → Option String
  | .text s => some s
  | _ => none

def asItems? : Node → Option (List Node)
  | .array items => some items
  | _ => none

/-- A list all of whose items can be read. -/
def asList? (read : Node → Option β) (node : Node) : Option (List β) := do
  (← node.asItems?).mapM read

/-- A number as a binary32 number; whole numbers are rounded once, others after binary64. -/
def asSingle? : Node → Option Float32
  | .int n =>
    let magnitude := n.natAbs.toUInt64.toFloat32
    some (if n < 0 then -magnitude else magnitude)
  | .float x => some x.toFloat32
  | _ => none

end Node

namespace Record

def required (r : Record) (name : String) (read : Node → Option β) : Option β := do
  read (← r name)

/-- A field that has a value when it is left out. -/
def withDefault (r : Record) (name : String) (value : β) (read : Node → Option β) : Option β :=
  match r name with
  | none => some value
  | some node => read node

/-- A field that may be left out or null. -/
def optional (r : Record) (name : String) (read : Node → Option β) : Option (Option β) :=
  match r name with
  | none | some .null => some none
  | some node => (read node).map some

end Record

end ArgumentDiagram.Json
