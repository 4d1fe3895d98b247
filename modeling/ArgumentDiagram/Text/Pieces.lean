/-!
Text as lists of characters: cutting at a separator, stripping both ends and padding. `joinWith_pieces`
says that cutting loses nothing.
-/

namespace ArgumentDiagram.Text

/-- The stretches between the occurrences of `separator`; always at least one. -/
def pieces (separator : Char) : List Char → List (List Char)
  | [] => [[]]
  | c :: rest =>
    if c = separator then [] :: pieces separator rest
    else match pieces separator rest with
      | [] => [[c]]
      | first :: others => (c :: first) :: others

/-- Puts `separator` between consecutive stretches. -/
def joinWith (separator : Char) : List (List Char) → List Char
  | [] => []
  | [last] => last
  | first :: rest => first ++ separator :: joinWith separator rest

/-- Drops the characters of a class from both ends. -/
def strip (drop : Char → Bool) (text : List Char) : List Char :=
  ((text.dropWhile drop).reverse.dropWhile drop).reverse

/-- Drops the characters of a class from the end. -/
def stripEnd (drop : Char → Bool) (text : List Char) : List Char :=
  (text.reverse.dropWhile drop).reverse

theorem pieces_ne_nil (separator : Char) (text : List Char) : pieces separator text ≠ [] := by
  cases text with
  | nil => simp [pieces]
  | cons c rest =>
      rw [pieces]
      split
      · simp
      · split <;> simp

theorem joinWith_pieces (separator : Char) (text : List Char) :
    joinWith separator (pieces separator text) = text := by
  induction text with
  | nil => rfl
  | cons c rest ih =>
      rw [pieces]
      split
      next h =>
        cases hp : pieces separator rest with
        | nil => exact absurd hp (pieces_ne_nil separator rest)
        | cons first others =>
            rw [hp] at ih
            rw [joinWith]
            · simp [ih, h]
            · simp
      next h =>
        cases hp : pieces separator rest with
        | nil => exact absurd hp (pieces_ne_nil separator rest)
        | cons first others =>
            rw [hp] at ih
            cases others with
            | nil => simpa [joinWith] using ih
            | cons second more =>
                rw [joinWith] at ih ⊢
                · simpa using ih
                · simp
                · simp

theorem notMem_of_mem_pieces {separator : Char} {text piece : List Char} (h : piece ∈ pieces separator text) :
    separator ∉ piece := by
  induction text generalizing piece with
  | nil =>
      obtain rfl := List.mem_singleton.1 h
      exact List.not_mem_nil
  | cons c rest ih =>
      rw [pieces] at h
      split at h
      next =>
        rcases List.mem_cons.1 h with rfl | h
        · exact List.not_mem_nil
        · exact ih h
      next hc =>
        split at h
        next =>
          obtain rfl := List.mem_singleton.1 h
          simpa using Ne.symm hc
        next first others hpieces =>
          rw [hpieces] at ih
          rcases List.mem_cons.1 h with rfl | h
          · exact fun hmem => (List.mem_cons.1 hmem).elim (Ne.symm hc) (ih (List.mem_cons_self ..))
          · exact ih (List.mem_cons_of_mem _ h)

end ArgumentDiagram.Text
