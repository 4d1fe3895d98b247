import ArgumentDiagram.Text.Pieces

/-!
File paths by their text.
-/

namespace ArgumentDiagram.Command

/-- The steps of a path. Empty steps count for nothing, and steps to the same place only at the start. -/
def steps (path : String) : List (List Char) :=
  let pieces := Text.pieces '/' path.toList
  let named := fun (piece : List Char) => !piece.isEmpty && piece != ['.']
  match pieces with
  | [] => []
  | first :: rest =>
    if first.isEmpty then ['/'] :: rest.filter named
    else if first = ['.'] then first :: rest.filter named
    else first :: rest.filter named

/-- The name of the file that a path leads to. -/
def fileName? (path : String) : Option (List Char) :=
  match (steps path).getLast? with
  | some name => if name = ['.'] ∨ name = ['.', '.'] ∨ name = ['/'] then none else some name
  | none => none

/-- What follows the last point of a file name, unless that point is its first character. -/
def extension? (path : String) : Option String := do
  let name ← fileName? path
  let tail := (name.reverse.takeWhile (· ≠ '.')).reverse
  if tail.length + 1 < name.length then some (.ofList tail) else none

end ArgumentDiagram.Command
