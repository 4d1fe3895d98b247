/-!
Text inside markup. The five characters that could end an attribute value, a tag or a text are written as
entities.
-/

namespace ArgumentDiagram.Text.Markup

/-- Writes something else for every occurrence of a character. -/
def replace (old : Char) (new : String) (text : List Char) : List Char :=
  text.flatMap fun c => if c = old then new.toList else [c]

/-- The text as it stands in an attribute value or between tags. The ampersand goes first, as there is one in
every entity. -/
def escape (text : String) : String :=
  let text := replace '&' "&amp;" text.toList
  let text := replace '<' "&lt;" text
  let text := replace '>' "&gt;" text
  let text := replace '"' "&quot;" text
  .ofList (replace '\x27' "&apos;" text)

end ArgumentDiagram.Text.Markup
