import ArgumentDiagram.Graph.Claim
import ArgumentDiagram.Json.Printer
import ArgumentDiagram.Json.Strict

/-!
Metadata as documents. The interpreted notes and all others share one object; notes that say nothing are
left out.
-/

namespace ArgumentDiagram.Metadata

open Json

/-- The names of the notes that are interpreted. -/
def knownNames : List String := ["assumption", "scope", "merged"]

/-- The members of the object that metadata is written as. -/
def members (m : Metadata) : List (String × Value) :=
  [("assumption", .bool m.assumption)]
    ++ (m.scope.map fun scope => ("scope", Value.text scope)).toList
    ++ (if m.merged then [("merged", .bool true)] else [])
    ++ m.extra.entries

/-- The value of a known note, which may be given only once. -/
def note? (members : List (String × Value)) (name : String) : Option (Option Value) :=
  match members.filter (·.1 = name) with
  | [] => some none
  | [(_, value)] => some (some value)
  | _ => none

def flag? : Option Value → Option Bool
  | none => some false
  | some (.bool b) => some b
  | _ => none

def scope? : Option Value → Option (Option String)
  | none | some .null => some none
  | some (.text s) => some (some s)
  | _ => none

/-- The metadata that the members of an object stand for; of further notes with one name the last counts. -/
def ofMembers? (members : List (String × Value)) : Option Metadata := do
  let assumption ← flag? (← note? members "assumption")
  let scope ← scope? (← note? members "scope")
  let merged ← flag? (← note? members "merged")
  pure ⟨assumption, scope, merged, .ofList (members.filter fun m => !knownNames.contains m.1)⟩

/-- The metadata that a text holds. -/
def ofText? (text : String) : Option Metadata := do
  let node ← Strict.dialect.document text
  if Strict.mostDepth < node.depth then none
  match node with
  | .object members => ofMembers? (← Node.membersOf? members)
  | _ => none

def text (m : Metadata) : String := (Form.object (Value.formsOfMembers m.members)).compact

end ArgumentDiagram.Metadata
