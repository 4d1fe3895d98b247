import ArgumentDiagram.Json.Node

/-!
Arrays and objects, read around whatever a dialect takes for blanks, scalars and member names.
-/

namespace ArgumentDiagram.Json

/-- What sets one way of writing documents apart from another. The readers give back what follows. -/
structure Dialect where
  /-- Drops blanks and comments. -/
  skip : List Char → List Char
  scalar : List Char → Option (Node × List Char)
  name : List Char → Option (Option String × List Char)
  /-- Whether a comma may stand after the last item. -/
  trailingComma : Bool

namespace Dialect

mutual

/-- The value at the start of a text. -/
def value (d : Dialect) (text : List Char) : Option (Node × List Char) :=
  match text with
  | '[' :: rest =>
    match d.skip rest with
    | ']' :: after => some (.array [], after)
    | inner =>
      if _ : inner.length ≤ rest.length then
        (d.items inner).map fun (items, after) => (.array items, after)
      else none
  | '{' :: rest =>
    match d.skip rest with
    | '}' :: after => some (.object [], after)
    | inner =>
      if _ : inner.length ≤ rest.length then
        (d.members inner).map fun (members, after) => (.object members, after)
      else none
  | _ => d.scalar text
termination_by (text.length, 0)

/-- The items up to the end of an array, of which there is at least one. -/
def items (d : Dialect) (text : List Char) : Option (List Node × List Char) :=
  match d.value text with
  | none => none
  | some (item, rest) =>
    match d.skip rest with
    | ']' :: after => some ([item], after)
    | ',' :: rest =>
      let next := d.skip rest
      match d.trailingComma, next with
      | true, ']' :: after => some ([item], after)
      | _, _ =>
        if _ : next.length < text.length then
          (d.items next).map fun (items, after) => (item :: items, after)
        else none
    | _ => none
termination_by (text.length, 1)

/-- The members up to the end of an object, of which there is at least one. -/
def members (d : Dialect) (text : List Char) :
    Option (List (Option String × Node) × List Char) :=
  match d.name text with
  | none => none
  | some (name, rest) =>
    match d.skip rest with
    | ':' :: rest =>
      let start := d.skip rest
      if _ : start.length < text.length then
        match d.value start with
        | none => none
        | some (item, rest) =>
          match d.skip rest with
          | '}' :: after => some ([(name, item)], after)
          | ',' :: rest =>
            let next := d.skip rest
            match d.trailingComma, next with
            | true, '}' :: after => some ([(name, item)], after)
            | _, _ =>
              if _ : next.length < text.length then
                (d.members next).map fun (members, after) => ((name, item) :: members, after)
              else none
          | _ => none
      else none
    | _ => none
termination_by (text.length, 1)

end

/-- The document that a text holds, blanks around it aside. -/
def document (d : Dialect) (text : String) : Option Node :=
  match d.value (d.skip text.toList) with
  | some (node, rest) => if (d.skip rest).isEmpty then some node else none
  | none => none

end Dialect

end ArgumentDiagram.Json
