import ArgumentDiagram.Json.Value
import ArgumentDiagram.Number.Style

/-!
Writing documents: on one line without blanks, or with one member or item per line.
-/

namespace ArgumentDiagram.Json

/-- A document to be written. An atom is a number or a name of a value, written as it is. -/
inductive Form where
  | atom (written : String)
  | text (s : String)
  | array (items : List Form)
  | object (members : List (String × Form))

namespace Form

def null : Form := .atom "null"

def bool (b : Bool) : Form := .atom (if b then "true" else "false")

def nat (n : Nat) : Form := .atom (toString n)

def ofOption (write : β → Form) : Option β → Form
  | some x => write x
  | none => null

/-- A control character by its number. -/
def controlEscape (c : Char) : String :=
  let digits := Nat.toDigits 16 c.toNat
  "\\u" ++ String.ofList (List.replicate (4 - digits.length) '0' ++ digits)

/-- How one character is written between the quotes. -/
def escape (c : Char) : String :=
  match c with
  | '"' => "\\\""
  | '\\' => "\\\\"
  | '\n' => "\\n"
  | '\r' => "\\r"
  | '\t' => "\\t"
  | '\x08' => "\\b"
  | '\x0c' => "\\f"
  | c => if c.toNat < 0x20 then controlEscape c else c.toString

def quoted (s : String) : String := "\"" ++ String.join (s.toList.map escape) ++ "\""

mutual

def compact : Form → String
  | .atom written => written
  | .text s => quoted s
  | .array items => "[" ++ ",".intercalate (compactItems items) ++ "]"
  | .object members => "\x7b" ++ ",".intercalate (compactMembers members) ++ "\x7d"

def compactItems : List Form → List String
  | [] => []
  | item :: rest => item.compact :: compactItems rest

def compactMembers : List (String × Form) → List String
  | [] => []
  | (name, item) :: rest => (quoted name ++ ":" ++ item.compact) :: compactMembers rest

end

/-- A line break and the indentation of a nesting level. -/
def lineBreak (level : Nat) : String := "\n" ++ String.ofList (List.replicate (2 * level) ' ')

/-- Parts between brackets, each on a line of its own; no parts take no line. -/
def bracketed (opening closing : String) (level : Nat) (parts : List String) : String :=
  if parts.isEmpty then opening ++ closing
  else opening ++ lineBreak (level + 1) ++ ("," ++ lineBreak (level + 1)).intercalate parts
    ++ lineBreak level ++ closing

mutual

def indented (level : Nat) : Form → String
  | .atom written => written
  | .text s => quoted s
  | .array items => bracketed "[" "]" level (indentedItems (level + 1) items)
  | .object members => bracketed "\x7b" "\x7d" level (indentedMembers (level + 1) members)

def indentedItems (level : Nat) : List Form → List String
  | [] => []
  | item :: rest => item.indented level :: indentedItems level rest

def indentedMembers (level : Nat) : List (String × Form) → List String
  | [] => []
  | (name, item) :: rest =>
    (quoted name ++ ": " ++ item.indented level) :: indentedMembers level rest

end

def pretty (form : Form) : String := form.indented 0

end Form

namespace Value

mutual

def form : Value → Form
  | .null => .null
  | .bool b => .bool b
  | .int n => .atom (toString n)
  | .float x => .atom (NumberStyle.wideDocument.write .double (.ofDouble x))
  | .text s => .text s
  | .array items => .array (formsOf items)
  | .object members => .object (formsOfMembers members)

def formsOf : List Value → List Form
  | [] => []
  | item :: rest => item.form :: formsOf rest

def formsOfMembers : List (String × Value) → List (String × Form)
  | [] => []
  | (name, item) :: rest => (name, item.form) :: formsOfMembers rest

end

end Value

end ArgumentDiagram.Json
