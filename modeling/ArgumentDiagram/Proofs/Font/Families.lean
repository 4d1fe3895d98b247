import ArgumentDiagram.Font.Family
import ArgumentDiagram.Proofs.Text.Words
import Mathlib.Data.List.TakeWhile

/-!
Blanks around a family list. They stand at the ends of its first and its last entry only, where they are taken
off anyway, so a list names the same families as its key.
-/

namespace ArgumentDiagram

namespace Text

variable {separator : Char} {p : Char → Bool} {lead trail text : List Char}

theorem pieces_separator (separator : Char) (rest : List Char) :
    pieces separator (separator :: rest) = [] :: pieces separator rest := by
  rw [pieces, if_pos rfl]

theorem pieces_cons {c : Char} {rest first : List Char} {others : List (List Char)} (hc : c ≠ separator)
    (h : pieces separator rest = first :: others) : pieces separator (c :: rest) = (c :: first) :: others := by
  rw [pieces, if_neg hc, h]

/-- What stands before a text and holds no separator goes to its first piece. -/
theorem exists_pieces_lead (hlead : separator ∉ lead) (text : List Char) : ∃ first others,
    pieces separator text = first :: others ∧ pieces separator (lead ++ text) = (lead ++ first) :: others := by
  obtain ⟨first, others, htext⟩ := List.exists_cons_of_ne_nil (pieces_ne_nil separator text)
  refine ⟨first, others, htext, ?_⟩
  induction lead with
  | nil => exact htext
  | cons c lead ih =>
      exact pieces_cons (List.ne_of_not_mem_cons hlead).symm (ih (List.not_mem_of_not_mem_cons hlead))

/-- What stands behind a text and holds no separator goes to its last piece. -/
theorem exists_pieces_trail (htrail : separator ∉ trail) (text : List Char) : ∃ front last,
    pieces separator text = front ++ [last] ∧ pieces separator (text ++ trail) = front ++ [last ++ trail] := by
  induction text with
  | nil =>
      obtain ⟨first, others, hnil, htrail⟩ := exists_pieces_lead htrail []
      obtain ⟨rfl, rfl⟩ := List.cons.inj hnil
      exact ⟨[], [], rfl, by simpa using htrail⟩
  | cons c rest ih =>
      obtain ⟨front, last, hrest, hmore⟩ := ih
      by_cases hc : c = separator
      · subst hc
        refine ⟨[] :: front, last, ?_, ?_⟩
        · rw [pieces_separator, hrest, List.cons_append]
        · rw [List.cons_append, pieces_separator, hmore, List.cons_append]
      · cases front with
        | nil => exact ⟨[], c :: last, pieces_cons hc hrest, pieces_cons hc hmore⟩
        | cons first front => exact ⟨(c :: first) :: front, last, pieces_cons hc hrest, pieces_cons hc hmore⟩

theorem strip_lead (hlead : ∀ c ∈ lead, p c) (text : List Char) : strip p (lead ++ text) = strip p text := by
  rw [strip, strip, List.dropWhile_append_of_pos hlead]

theorem strip_trail (htrail : ∀ c ∈ trail, p c) (text : List Char) : strip p (text ++ trail) = strip p text := by
  have hreverse : ∀ c ∈ trail.reverse, p c := fun c hc => htrail c (List.mem_reverse.1 hc)
  rw [strip, strip, List.dropWhile_append]
  split
  next hnil =>
    have htrail : trail.dropWhile p = [] := List.dropWhile_eq_nil_iff.2 htrail
    rw [htrail, List.isEmpty_iff.1 hnil]
  next => rw [List.reverse_append, List.dropWhile_append_of_pos hreverse]

/-- A text is what trimming leaves of it, between blanks. -/
theorem exists_trim (text : List Char) : ∃ lead trail, (∀ c ∈ lead, isBlank c) ∧ (∀ c ∈ trail, isBlank c) ∧
    text = lead ++ (trim text ++ trail) := by
  obtain ⟨trail, htrail, hrest⟩ := exists_trimEnd (text.dropWhile isBlank)
  refine ⟨text.takeWhile isBlank, trail, List.all_eq_true.1 List.all_takeWhile, htrail, ?_⟩
  rw [trim_eq, ← hrest, List.takeWhile_append_dropWhile]

end Text

namespace FontFamily

open Text

variable {blanks : List Char}

theorem comma_notMem (h : ∀ c ∈ blanks, isBlank c) : ',' ∉ blanks := fun hmem => absurd (h _ hmem) (by decide)

theorem unquote_lead (h : ∀ c ∈ blanks, isBlank c) (entry : List Char) :
    unquote (blanks ++ entry) = unquote entry := by
  rw [unquote, unquote, trim, strip_lead h, trim]

theorem unquote_trail (h : ∀ c ∈ blanks, isBlank c) (entry : List Char) :
    unquote (entry ++ blanks) = unquote entry := by
  rw [unquote, unquote, trim, strip_trail h, trim]

theorem ofList_lead (h : ∀ c ∈ blanks, isBlank c) (list : List Char) : ofList (blanks ++ list) = ofList list := by
  obtain ⟨first, others, hlist, hmore⟩ := exists_pieces_lead (comma_notMem h) list
  rw [ofList, ofList, hlist, hmore, List.map_cons, List.map_cons, unquote_lead h]

theorem ofList_trail (h : ∀ c ∈ blanks, isBlank c) (list : List Char) : ofList (list ++ blanks) = ofList list := by
  obtain ⟨front, last, hlist, hmore⟩ := exists_pieces_trail (comma_notMem h) list
  have hentries : (front ++ [last ++ blanks]).map unquote = (front ++ [last]).map unquote := by
    simp [unquote_trail h]
  rw [ofList, ofList, hlist, hmore, hentries]

theorem ofList_trim (list : List Char) : ofList (trim list) = ofList list := by
  obtain ⟨lead, trail, hlead, htrail, hlist⟩ := exists_trim list
  calc
    ofList (trim list) = ofList (trim list ++ trail) := (ofList_trail htrail _).symm
    _ = ofList (lead ++ (trim list ++ trail)) := (ofList_lead hlead _).symm
    _ = ofList list := by rw [← hlist]

/-- A list names the same families as its key. -/
theorem ofList_key (list : List Char) : ofList (key list) = ofList list := by
  rw [key, ← ofList_trim list]
  split
  next hblank =>
    -- the default stands for the family that a list of nothing means
    rw [List.isEmpty_iff.1 hblank]
    decide
  next => rfl

example : ofList (key " \"Inter\" ,, SYSTEM-UI\t".toList) = [.named "Inter".toList, .sansSerif] := by decide

end FontFamily

end ArgumentDiagram
