import ArgumentDiagram.Json.Value
import ArgumentDiagram.Table.Basic

/-!
Documents as they are read, before their contents are asked for: members keep their order and may repeat,
and a text or number that is well formed but stands for no value is kept as such.
-/

namespace ArgumentDiagram.Json

inductive Node where
  | null
  | bool (b : Bool)
  | int (n : Int)
  | float (x : Float)
  | text (s : String)
  /-- A text with half a surrogate pair, or a number past the greatest one. -/
  | unreadable
  | array (items : List Node)
  /-- The name of a member is absent if it is unreadable. -/
  | object (members : List (Option String × Node))

/-- The value of an object: members in the order of their names, the last one of each name. -/
def Value.ofMembers (members : List (String × Value)) : Value :=
  .object (Table.ofList members).entries

namespace Node

mutual

/-- The value of a document, if all of it is readable. -/
def value? : Node → Option Value
  | .null => some .null
  | .bool b => some (.bool b)
  | .int n => some (.int n)
  | .float x => some (.float x)
  | .text s => some (.text s)
  | .unreadable => none
  | .array items => (valuesOf? items).map .array
  | .object members => (membersOf? members).map Value.ofMembers

def valuesOf? : List Node → Option (List Value)
  | [] => some []
  | item :: rest => do
    let value ← item.value?
    let values ← valuesOf? rest
    pure (value :: values)

/-- All members in their order, if they are readable. -/
def membersOf? : List (Option String × Node) → Option (List (String × Value))
  | [] => some []
  | (name, item) :: rest => do
    let name ← name
    let value ← item.value?
    let members ← membersOf? rest
    pure ((name, value) :: members)

end

mutual

/-- How many arrays and objects are nested in each other. -/
def depth : Node → Nat
  | .array items => 1 + depthOfItems items
  | .object members => 1 + depthOfMembers members
  | _ => 0

def depthOfItems : List Node → Nat
  | [] => 0
  | item :: rest => max item.depth (depthOfItems rest)

def depthOfMembers : List (Option String × Node) → Nat
  | [] => 0
  | (_, item) :: rest => max item.depth (depthOfMembers rest)

end

end Node

end ArgumentDiagram.Json
