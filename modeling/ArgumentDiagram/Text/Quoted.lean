import ArgumentDiagram.Text.Blank
import ArgumentDiagram.Text.Class.Hidden

/-!
Quoted text for people to read: quotes around it, and escapes for what could not be told apart on a page.
-/

namespace ArgumentDiagram.Text.Quoted

/-- How one character is written between the quotes. -/
def escape (c : Char) : List Char :=
  match c with
  | '\x00' => ['\\', '0']
  | '\t' => ['\\', 't']
  | '\n' => ['\\', 'n']
  | '\r' => ['\\', 'r']
  | '"' => ['\\', '"']
  | '\\' => ['\\', '\\']
  | c =>
    if inRanges hidden c then ['\\', 'u', '{'] ++ Nat.toDigits 16 c.toNat ++ ['}'] else [c]

def quote (text : String) : String :=
  .ofList ('"' :: text.toList.flatMap escape ++ ['"'])

end ArgumentDiagram.Text.Quoted
