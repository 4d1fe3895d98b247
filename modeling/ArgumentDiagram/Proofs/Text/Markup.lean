import ArgumentDiagram.Text.Markup
import Mathlib.Logic.Function.Basic

/-!
Text inside markup, character by character. Escaping is the same as writing an entity for each of the five
characters, none of them is left but the ampersands of the entities, and reading the entities gives the text
back.
-/

namespace ArgumentDiagram.Text.Markup

/-- How one character is written. -/
def entity : Char → List Char
  | '&' => "&amp;".toList
  | '<' => "&lt;".toList
  | '>' => "&gt;".toList
  | '"' => "&quot;".toList
  | '\x27' => "&apos;".toList
  | c => [c]

def encode (text : List Char) : List Char := text.flatMap entity

/-- Replaces the five entities; all else is kept. -/
def decode : List Char → List Char
  | '&' :: 'a' :: 'm' :: 'p' :: ';' :: rest => '&' :: decode rest
  | '&' :: 'l' :: 't' :: ';' :: rest => '<' :: decode rest
  | '&' :: 'g' :: 't' :: ';' :: rest => '>' :: decode rest
  | '&' :: 'q' :: 'u' :: 'o' :: 't' :: ';' :: rest => '"' :: decode rest
  | '&' :: 'a' :: 'p' :: 'o' :: 's' :: ';' :: rest => '\x27' :: decode rest
  | c :: rest => c :: decode rest
  | [] => []

/-- The five characters that are not written as they are. -/
def marked : List Char := ['&', '<', '>', '"', '\x27']

theorem entity_of_not_mem {c : Char} (h : c ∉ marked) : entity c = [c] := by
  unfold entity
  split <;> first | rfl | exact absurd (by decide) h

theorem encode_cons (c : Char) (rest : List Char) : encode (c :: rest) = entity c ++ encode rest :=
  List.flatMap_cons

/-- Text without any of the five characters is written as it is. -/
theorem encode_of_forall_not_mem {text : List Char} (h : ∀ c ∈ text, c ∉ marked) : encode text = text := by
  induction text with
  | nil => rfl
  | cons c rest ih =>
      obtain ⟨hc, hrest⟩ := List.forall_mem_cons.1 h
      rw [encode_cons, entity_of_not_mem hc, ih hrest, List.singleton_append]

theorem replace_cons (old c : Char) (new : String) (text : List Char) :
    replace old new (c :: text) = replace old new [c] ++ replace old new text := by
  simp [replace]

theorem replace_append (old : Char) (new : String) (first second : List Char) :
    replace old new (first ++ second) = replace old new first ++ replace old new second :=
  List.flatMap_append

theorem replace_singleton_of_ne {old c : Char} (h : c ≠ old) (new : String) : replace old new [c] = [c] := by
  rw [replace, List.flatMap_singleton, if_neg h]

/-- Five replacements of a whole text come to one entity for each character, as none of them finds anything in
what the ones before have written. -/
theorem toList_escape (text : String) : (escape text).toList = encode text.toList := by
  rw [escape, String.toList_ofList]
  induction text.toList with
  | nil => rfl
  | cons c rest ih =>
      rw [encode_cons, ← ih, replace_cons '&' c _ rest]
      simp only [replace_append]
      congr 1
      by_cases hmarked : c ∈ marked
      · simp only [marked, List.mem_cons, List.not_mem_nil, or_false] at hmarked
        rcases hmarked with rfl | rfl | rfl | rfl | rfl <;> decide
      · rw [entity_of_not_mem hmarked]
        simp only [marked, List.mem_cons, List.not_mem_nil, or_false, not_or] at hmarked
        obtain ⟨hand, hless, hgreater, hquote, hapostrophe⟩ := hmarked
        rw [replace_singleton_of_ne hand, replace_singleton_of_ne hless, replace_singleton_of_ne hgreater,
          replace_singleton_of_ne hquote, replace_singleton_of_ne hapostrophe]

theorem not_mem_encode {c : Char} (hc : c ∈ marked) (hne : c ≠ '&') (text : List Char) : c ∉ encode text := by
  intro hmem
  obtain ⟨d, -, hmem⟩ := List.mem_flatMap.1 hmem
  by_cases hd : d ∈ marked
  · revert hmem
    simp only [marked, List.mem_cons, List.not_mem_nil, or_false] at hc hd
    rcases hc with rfl | rfl | rfl | rfl | rfl <;> rcases hd with rfl | rfl | rfl | rfl | rfl <;>
      first | exact absurd rfl hne | decide
  · rw [entity_of_not_mem hd, List.mem_singleton] at hmem
    exact hd (hmem ▸ hc)

theorem decode_cons_of_ne {c : Char} (h : c ≠ '&') (rest : List Char) : decode (c :: rest) = c :: decode rest := by
  rw [decode] <;> simp [h]

theorem decode_entity_append (c : Char) (rest : List Char) : decode (entity c ++ rest) = c :: decode rest := by
  by_cases hmarked : c ∈ marked
  · simp only [marked, List.mem_cons, List.not_mem_nil, or_false] at hmarked
    rcases hmarked with rfl | rfl | rfl | rfl | rfl <;> rfl
  · rw [entity_of_not_mem hmarked, List.singleton_append, decode_cons_of_ne]
    rintro rfl
    exact hmarked (List.mem_cons_self ..)

theorem decode_encode (text : List Char) : decode (encode text) = text := by
  induction text with
  | nil => rfl
  | cons c rest ih => rw [encode_cons, decode_entity_append, ih]

theorem encode_injective : Function.Injective encode := by
  have hinverse : Function.LeftInverse decode encode := decode_encode
  exact hinverse.injective

theorem escape_injective : Function.Injective escape := by
  intro first second h
  have hlist := congrArg String.toList h
  rw [toList_escape, toList_escape] at hlist
  exact String.toList_injective (encode_injective hlist)

end ArgumentDiagram.Text.Markup
