import ArgumentDiagram.Command.Run

/-!
Files held in memory, reached by paths as on a disk: a host for the command that needs no disk.
-/

namespace ArgumentDiagram.Command

/-- The names that lead from the root to an entry. -/
abbrev Place := List (List Char)

/-- What stands at a place. -/
inductive Entry where
  | directory
  | file (bytes : ByteArray)
  /-- Takes everything and holds nothing. -/
  | sink
  /-- Has no room for anything. -/
  | full
  | standardInput
  | standardOutput

/-- A tree of files, the place that relative paths start from, and the standard streams. -/
structure FileTree where
  entries : List (Place × Entry)
  here : Place
  /-- What is left to be read from the standard input. -/
  input : ByteArray
  printed : String

namespace FileTree

/-- The greatest number of bytes in a name. -/
def longestName : Nat := 255

/-- The greatest number of bytes in a path. -/
def longestPath : Nat := 4095

/-- The number of bytes that a buffer holds back. -/
def bufferSize : Nat := 8192

/-- What stands at a place. Every place on the way to an entry is a directory. -/
def get? (t : FileTree) (place : Place) : Option Entry :=
  match t.entries.lookup place with
  | some entry => some entry
  | none =>
    if place.isPrefixOf t.here || t.entries.any (place.isPrefixOf ·.1) then some .directory else none

/-- Looks for what stands at a place, by the last of its names. -/
def find (t : FileTree) (place : Place) : Except FileError (Option Entry) :=
  let name := String.ofList (place.getLast?.getD [])
  if longestName < name.utf8ByteSize then .error .nameTooLong else .ok (t.get? place)

/-- The place that a name leads to from another place, which must be a directory. -/
def enter (t : FileTree) (place : Place) (name : List Char) : Except FileError Place := do
  match ← t.find place with
  | some .directory =>
    if name = ['.'] then .ok place
    else if name = ['.', '.'] then .ok place.dropLast
    else .ok (place ++ [name])
  | some _ => .error .notADirectory
  | none => .error .notFound

/-- The place that a path leads to; only its last name may lead to nothing. -/
def follow (t : FileTree) (path : String) : Except FileError Place :=
  let names := (Text.pieces '/' path.toList).filter (!·.isEmpty)
  if path.toList.contains '\x00' then .error .nulInName
  else if longestPath < path.utf8ByteSize then .error .nameTooLong
  else if path.isEmpty then .error .notFound
  else names.foldlM t.enter (if path.toList.head? = some '/' then [] else t.here)

/-- Whether a path can only lead to a directory. -/
def endsInSlash (path : String) : Bool := path.toList.getLast? = some '/'

/-- The text at a path. What the standard input held is gone after it was read. -/
def read (t : FileTree) (path : String) : Except FileError (String × FileTree) := do
  match ← t.find (← t.follow path) with
  | none => .error .notFound
  | some .directory => .error .isADirectory
  | some entry =>
    if endsInSlash path then .error .notADirectory
    else match entry with
      | .file bytes => do .ok (← decode bytes, t)
      | .standardInput => do .ok (← decode t.input, { t with input := .empty })
      | _ => .ok ("", t)

/-- Puts a file at a place. -/
def put (t : FileTree) (place : Place) (bytes : ByteArray) : FileTree :=
  { t with entries := (place, .file bytes) :: t.entries.filter (·.1 != place) }

def write (t : FileTree) (path text : String) : Except FileError FileTree := do
  let place ← t.follow path
  if endsInSlash path then .error .isADirectory
  else match ← t.find place with
    | some .directory => .error .isADirectory
    | some .full => if text.isEmpty then .ok t else .error .noSpace
    | some .sink | some .standardInput => .ok t
    | some .standardOutput => .ok { t with printed := t.printed ++ text }
    | some (.file _) | none => .ok (t.put place text.toUTF8)

/-- Writes through a buffer, which goes unseen where all of the text fits it. -/
def writeBuffered (t : FileTree) (path text : String) : Except FileError FileTree :=
  match t.write path text with
  | .error .noSpace => if text.utf8ByteSize ≤ bufferSize then .ok t else .error .noSpace
  | result => result

/-- Keeps the tree that an action leaves, if it succeeds. -/
def update {β : Type} (action : FileTree → Except FileError (β × FileTree)) :
    StateM FileTree (Except FileError β) :=
  fun t => match action t with
    | .ok (result, after) => (.ok result, after)
    | .error e => (.error e, t)

def host : Host (StateM FileTree) where
  read path := update (·.read path)
  readInput := update fun t => do .ok (← decode t.input, { t with input := .empty })
  write path text := update fun t => do .ok ((), ← t.write path text)
  writeBuffered path text := update fun t => do .ok ((), ← t.writeBuffered path text)
  print text := modify fun t => { t with printed := t.printed ++ text }

end FileTree

end ArgumentDiagram.Command
