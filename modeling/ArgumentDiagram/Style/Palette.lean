/-!
Scope colours. A palette gives each scope it is asked for a colour of its own, from the end of a list, and
keeps to that choice; once the list is used up, further scopes have none.
-/

namespace ArgumentDiagram

structure ScopePalette where
  /-- Scopes with their colours, in the order they were first asked for. -/
  chosen : List (String × String)
  remaining : List String
deriving DecidableEq

namespace ScopePalette

def ofColors (colors : List String) : ScopePalette := ⟨[], colors⟩

/-- The colour a scope already has. -/
def assigned (p : ScopePalette) (scope : String) : Option String := p.chosen.lookup scope

/-- The colour of a scope, which takes the last remaining one when it is first asked for. -/
def colorFor (p : ScopePalette) (scope : String) : Option String × ScopePalette :=
  match p.assigned scope with
  | some color => (some color, p)
  | none =>
    match p.remaining.getLast? with
    | none => (none, p)
    | some color => (some color, ⟨p.chosen ++ [(scope, color)], p.remaining.dropLast⟩)

end ScopePalette

end ArgumentDiagram
