import ArgumentDiagram.Graph.Claim
import ArgumentDiagram.Text.Blank

/-!
Scripts: one statement per line, each naming a claim or a relation.

    a: All men are mortal
    b: assume He is a man
    x: a b supports c

Lines of any other form are passed over.
-/

namespace ArgumentDiagram

inductive StatementKind where
  | claim (text : String)
  | relation (sources : List String) (kind : RelationKind) (target : String)
deriving DecidableEq

structure Statement where
  /-- Counted from one. -/
  line : Nat
  /-- The variable that what it says is given to. -/
  name : String
  assumption : Bool
  kind : StatementKind
deriving DecidableEq

abbrev Script := List Statement

namespace Script

open Text

def isLetter (c : Char) : Bool := 'a' ≤ c && c ≤ 'z'

/-- A non-empty word of the letters that variables are made of. -/
def isName (word : List Char) : Bool := !word.isEmpty && word.all isLetter

/-- The variable that a line names and what it says about it. -/
def header? (line : List Char) : Option (List Char × List Char) :=
  let start := line.dropWhile isBlank
  let name := start.takeWhile isLetter
  match (start.dropWhile isLetter).dropWhile isBlank with
  | ':' :: rest =>
    let body := trim rest
    if name.isEmpty || body.isEmpty then none else some (name, body)
  | _ => none

/-- The word that joins the sources of a relation to its target. -/
def verb? : String → Option RelationKind
  | "supports" => some .support
  | "attacks" => some .attack
  | _ => none

/-- Marks what a line says as an assumption. -/
def assumeWord : List Char := "assume".toList

/-- A relation: sources, a verb and a target. A leading mark counts only if a source follows it. -/
def relation? (body : List Char) : Option (Bool × StatementKind) :=
  let all := words body
  if all.all isName then
    match all.reverse with
    | target :: verb :: source :: others => do
      let kind ← verb? (.ofList verb)
      let sources := (source :: others).reverse
      let (assumption, sources) := match sources with
        | first :: second :: more =>
          if first = assumeWord then (true, second :: more) else (false, sources)
        | _ => (false, sources)
      pure (assumption, .relation (sources.map String.ofList) kind (.ofList target))
    | _ => none
  else none

/-- A claim: any text, behind the mark if it is an assumption. -/
def claim (body : List Char) : Bool × StatementKind :=
  match body.drop assumeWord.length with
  | c :: rest =>
    if body.take assumeWord.length = assumeWord && isBlank c then
      (true, .claim (.ofList (rest.dropWhile isBlank)))
    else (false, .claim (.ofList body))
  | [] => (false, .claim (.ofList body))

def statement? (number : Nat) (line : List Char) : Option Statement := do
  let (name, body) ← header? (trimEnd line)
  let (assumption, kind) := (relation? body).getD (claim body)
  pure ⟨number, .ofList name, assumption, kind⟩

/-- The statements of a text, in the order of its lines. -/
def ofText (text : String) : Script :=
  ((pieces '\n' text.toList).zipIdx 1).filterMap fun (line, number) => statement? number line

end Script

end ArgumentDiagram
