import ArgumentDiagram.Text.Pieces

/-!
Blank characters, those with the Unicode property White_Space, and the words between them.
-/

namespace ArgumentDiagram.Text

/-- The characters with the property White_Space. -/
def blanks : List (Nat × Nat) :=
  [(0x09, 0x0D), (0x20, 0x20), (0x85, 0x85), (0xA0, 0xA0), (0x1680, 0x1680), (0x2000, 0x200A),
    (0x2028, 0x2029), (0x202F, 0x202F), (0x205F, 0x205F), (0x3000, 0x3000)]

/-- Whether a code point lies in one of the ranges. -/
def inRanges (ranges : List (Nat × Nat)) (c : Char) : Bool :=
  ranges.any fun (first, last) => first ≤ c.toNat && c.toNat ≤ last

def isBlank (c : Char) : Bool := inRanges blanks c

def trim (text : List Char) : List Char := strip isBlank text

def trimEnd (text : List Char) : List Char := stripEnd isBlank text

/-- The words of a text: its longest stretches without blanks. -/
def words (text : List Char) : List (List Char) :=
  match _ : text.dropWhile isBlank with
  | [] => []
  | c :: rest =>
    (c :: rest.takeWhile (!isBlank ·)) :: words (rest.dropWhile (!isBlank ·))
termination_by text.length
decreasing_by
  have h₁ := (List.dropWhile_sublist (fun c => !isBlank c) (l := rest)).length_le
  have h₂ := (List.dropWhile_sublist isBlank (l := text)).length_le
  have h₃ := congrArg List.length ‹text.dropWhile isBlank = c :: rest›
  simp only [List.length_cons] at h₃
  omega

end ArgumentDiagram.Text
