import ArgumentDiagram.Text.Blank

/-!
Font families, named one by one or in a comma-separated list where the first family at hand is meant.
-/

namespace ArgumentDiagram

inductive FontFamily where
  | serif
  | sansSerif
  | monospace
  | cursive
  | fantasy
  | named (name : List Char)
deriving DecidableEq

namespace FontFamily

/-- A family by its name; generic families are known in any letter case, and by aliases. -/
def ofName (name : List Char) : FontFamily :=
  match String.ofList (name.map Char.toLower) with
  | "serif" => .serif
  | "sans-serif" | "system-ui" | "-apple-system" | "ui-sans-serif" => .sansSerif
  | "monospace" | "ui-monospace" => .monospace
  | "cursive" => .cursive
  | "fantasy" => .fantasy
  | _ => .named name

/-- The name that a family is looked up under. -/
def faceName : FontFamily → String
  | .serif => "Times New Roman"
  | .sansSerif => "Arial"
  | .monospace => "Courier New"
  | .cursive => "Comic Sans MS"
  | .fantasy => "Impact"
  | .named name => .ofList name

/-- One entry of a family list without the blanks and quotes around it. -/
def unquote (entry : List Char) : List Char :=
  Text.strip (· == '\x27') (Text.strip (· == '"') (Text.trim entry))

/-- The families of a list, in order. Empty entries are skipped; a list of nothing else means the
sans-serif family. -/
def ofList (list : List Char) : List FontFamily :=
  let names := ((Text.pieces ',' list).map unquote).filter (!·.isEmpty)
  if names.isEmpty then [.sansSerif] else names.map ofName

/-- The text that stands for all family lists that differ only in the blanks around them. -/
def key (list : List Char) : List Char :=
  let trimmed := Text.trim list
  if trimmed.isEmpty then "sans-serif".toList else trimmed

end FontFamily

end ArgumentDiagram
