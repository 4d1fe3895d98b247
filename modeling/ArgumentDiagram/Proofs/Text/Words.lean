import ArgumentDiagram.Text.Blank

/-!
Stretches of characters, and words between blanks. A text is cut where a class of characters ends; what is cut
that way can be put together again, and the words of a text are those that it was put together from.
-/

namespace ArgumentDiagram.Text

section Stretches

variable {p : Char → Bool} {text first rest : List Char}

/-- A text does not begin with a character of a class. -/
def Stops (p : Char → Bool) (text : List Char) : Prop := ∀ c ∈ text.head?, p c = false

theorem stops_nil (p : Char → Bool) : Stops p [] := fun _ h => by cases h

theorem stops_cons {c : Char} : Stops p (c :: rest) ↔ p c = false := by simp [Stops]

theorem Stops.append (h : Stops p first) (hne : first ≠ []) (rest : List Char) : Stops p (first ++ rest) := by
  obtain ⟨c, others, rfl⟩ := List.exists_cons_of_ne_nil hne
  exact stops_cons.2 (stops_cons.1 h)

theorem stops_dropWhile (p : Char → Bool) (text : List Char) : Stops p (text.dropWhile p) := by
  intro c hc
  have hhead := List.head?_dropWhile_not p text
  rw [hc] at hhead
  simpa using hhead

theorem takeWhile_append (hfirst : ∀ c ∈ first, p c) (hrest : Stops p rest) :
    (first ++ rest).takeWhile p = first := by
  rw [List.takeWhile_append_of_pos hfirst]
  cases rest with
  | nil => simp
  | cons c rest => simp [stops_cons.1 hrest]

theorem dropWhile_eq_self (h : Stops p text) : text.dropWhile p = text := by
  cases text with
  | nil => rfl
  | cons c rest => simp [stops_cons.1 h]

theorem dropWhile_append (hfirst : ∀ c ∈ first, p c) (hrest : Stops p rest) :
    (first ++ rest).dropWhile p = rest := by
  rw [List.dropWhile_append_of_pos hfirst, dropWhile_eq_self hrest]

theorem eq_nil_of_stops (hall : ∀ c ∈ text, p c) (h : Stops p text) : text = [] := by
  cases text with
  | nil => rfl
  | cons c rest => simp [stops_cons.1 h] at hall

theorem eq_nil_of_stops_not (h : Stops p text) (hnot : Stops (!p ·) text) : text = [] := by
  cases text with
  | nil => rfl
  | cons c rest => simpa [stops_cons.1 h] using stops_cons.1 hnot

/-- A text is cut where a class ends for the first time. -/
theorem exists_cut (p : Char → Bool) (text : List Char) :
    ∃ first rest, text = first ++ rest ∧ (∀ c ∈ first, p c = true) ∧ Stops p rest :=
  ⟨_, _, List.takeWhile_append_dropWhile.symm, List.all_eq_true.1 List.all_takeWhile, stops_dropWhile _ _⟩

/-- A text that does not end in a class has no end that does. -/
theorem stops_reverse_of_append (h : Stops p (first ++ rest).reverse) : Stops p rest.reverse := by
  rw [List.reverse_append] at h
  cases hrest : rest.reverse with
  | nil => exact stops_nil p
  | cons c others =>
      rw [hrest, List.cons_append, stops_cons] at h
      exact stops_cons.2 h

end Stretches

section Trimming

variable {text trail : List Char}

/-- A text neither begins nor ends with a blank. -/
structure Tight (text : List Char) : Prop where
  start : Stops isBlank text
  finish : Stops isBlank text.reverse

theorem trimEnd_append (htext : Stops isBlank text.reverse) (htrail : ∀ c ∈ trail, isBlank c) :
    trimEnd (text ++ trail) = text := by
  rw [trimEnd, stripEnd, List.reverse_append, dropWhile_append (by simpa using htrail) htext, List.reverse_reverse]

theorem exists_trimEnd (text : List Char) :
    ∃ trail, (∀ c ∈ trail, isBlank c) ∧ text = trimEnd text ++ trail := by
  refine ⟨(text.reverse.takeWhile isBlank).reverse, fun c hc => ?_, ?_⟩
  · exact List.all_eq_true.1 List.all_takeWhile c (List.mem_reverse.1 hc)
  · rw [trimEnd, stripEnd, ← List.reverse_append, List.takeWhile_append_dropWhile, List.reverse_reverse]

theorem trimEnd_eq_self (h : Stops isBlank text.reverse) : trimEnd text = text := by
  simpa using trimEnd_append h (List.forall_mem_nil _)

theorem stops_trimEnd (text : List Char) : Stops isBlank (trimEnd text).reverse := by
  rw [trimEnd, stripEnd, List.reverse_reverse]
  exact stops_dropWhile _ _

theorem trim_eq (text : List Char) : trim text = trimEnd (text.dropWhile isBlank) := rfl

/-- Nothing is taken off at an end that is no blank. -/
theorem trim_eq_dropWhile (h : Stops isBlank text.reverse) : trim text = text.dropWhile isBlank := by
  rw [← List.takeWhile_append_dropWhile (p := isBlank) (l := text)] at h
  rw [trim_eq, trimEnd_eq_self (stops_reverse_of_append h)]

end Trimming

/-! ### Words -/

/-- A stretch of characters that are no blanks. -/
structure IsWord (word : List Char) : Prop where
  nonempty : word ≠ []
  full : ∀ c ∈ word, isBlank c = false

/-- What stands between words. -/
structure IsGap (gap : List Char) : Prop where
  nonempty : gap ≠ []
  blank : ∀ c ∈ gap, isBlank c = true

/-- A text is made of words with gaps between them. -/
inductive Spaced : List (List Char) → List Char → Prop where
  | one {word : List Char} (hword : IsWord word) : Spaced [word] word
  | cons {word gap rest : List Char} {words : List (List Char)} (hword : IsWord word) (hgap : IsGap gap)
      (h : Spaced words rest) : Spaced (word :: words) (word ++ (gap ++ rest))

/-- A text is made of words with a gap behind each. -/
inductive Leading : List (List Char) → List Char → Prop where
  | nil : Leading [] []
  | cons {word gap rest : List Char} {words : List (List Char)} (hword : IsWord word) (hgap : IsGap gap)
      (h : Leading words rest) : Leading (word :: words) (word ++ (gap ++ rest))

section Words

variable {word gap rest text : List Char} {ws ws' : List (List Char)}

theorem IsWord.stops (h : IsWord word) (rest : List Char) : Stops isBlank (word ++ rest) := by
  obtain ⟨c, others, rfl⟩ := List.exists_cons_of_ne_nil h.nonempty
  exact stops_cons.2 (h.full c (by simp))

theorem IsGap.stops (h : IsGap gap) (rest : List Char) : Stops (!isBlank ·) (gap ++ rest) := by
  obtain ⟨c, others, rfl⟩ := List.exists_cons_of_ne_nil h.nonempty
  exact stops_cons.2 (by simp [h.blank c (by simp)])

theorem Spaced.append (hlead : Leading ws text) (h : Spaced ws' rest) : Spaced (ws ++ ws') (text ++ rest) := by
  induction hlead with
  | nil => exact h
  | cons hword hgap _ ih =>
      rw [List.append_assoc, List.append_assoc]
      exact .cons hword hgap ih

theorem Spaced.exists_append (hws : ws' ≠ []) (h : Spaced (ws ++ ws') text) :
    ∃ lead rest, text = lead ++ rest ∧ Leading ws lead ∧ Spaced ws' rest := by
  induction ws generalizing text with
  | nil => exact ⟨[], text, rfl, .nil, h⟩
  | cons word others ih =>
      cases hall : others ++ ws' with
      | nil => exact absurd (List.append_eq_nil_iff.1 hall).2 hws
      | cons next more =>
          rw [List.cons_append, hall] at h
          cases h with
          | @cons _ gap rest _ hword hgap h =>
              obtain ⟨lead, last, rfl, hlead, hlast⟩ := ih (hall ▸ h)
              exact ⟨word ++ (gap ++ lead), last, by simp, .cons hword hgap hlead, hlast⟩

@[simp] theorem words_nil : words [] = [] := by
  rw [words]
  rfl

theorem words_gap (hgap : ∀ c ∈ gap, isBlank c) (rest : List Char) : words (gap ++ rest) = words rest := by
  rw [words.eq_def, words.eq_def rest, List.dropWhile_append_of_pos hgap]

theorem words_word (hword : IsWord word) (hrest : Stops (!isBlank ·) rest) :
    words (word ++ rest) = word :: words rest := by
  obtain ⟨c, others, rfl⟩ := List.exists_cons_of_ne_nil hword.nonempty
  have hothers : ∀ d ∈ others, (!isBlank d) = true := fun d hd => by simp [hword.full d (by simp [hd])]
  have hdrop : (c :: (others ++ rest)).dropWhile isBlank = c :: (others ++ rest) :=
    dropWhile_eq_self (hword.stops rest)
  rw [List.cons_append, words]
  split
  next hnil => cases hnil.symm.trans hdrop
  next first tail hcons =>
    obtain ⟨rfl, rfl⟩ := List.cons.inj (hcons.symm.trans hdrop)
    rw [takeWhile_append hothers hrest, dropWhile_append hothers hrest]

/-- A text of words with gaps has just these words. -/
theorem words_of_spaced (h : Spaced ws text) : words text = ws := by
  induction h with
  | one hword => simpa using words_word hword (stops_nil _)
  | cons hword hgap _ ih => rw [words_word hword (hgap.stops _), words_gap hgap.blank, ih]

theorem words_of_leading (h : Leading ws text) : words text = ws := by
  induction h with
  | nil => exact words_nil
  | cons hword hgap _ ih => rw [words_word hword (hgap.stops _), words_gap hgap.blank, ih]

/-- A tight text is made of its words. -/
theorem spaced_words {text : List Char} (h : Tight text) (hne : text ≠ []) : Spaced (words text) text := by
  induction hn : text.length using Nat.strongRecOn generalizing text with
  | ind n ih =>
      obtain ⟨word, tail, rfl, hfull, htail⟩ := exists_cut (!isBlank ·) text
      have hword : IsWord word := by
        refine ⟨fun hnil => hne ?_, fun c hc => by simpa using hfull c hc⟩
        subst hnil
        exact eq_nil_of_stops_not h.start htail
      rw [words_word hword htail]
      obtain ⟨gap, rest, rfl, hgap, hrest⟩ := exists_cut isBlank tail
      rw [words_gap hgap]
      by_cases hend : rest = []
      · subst hend
        -- What ends the text would be a gap, and there is none.
        have hstop : Stops isBlank gap.reverse := by simpa using stops_reverse_of_append h.finish
        have hnone : gap = [] := List.reverse_eq_nil_iff.1 (eq_nil_of_stops (by simpa using hgap) hstop)
        subst hnone
        simpa using Spaced.one hword
      · have hnonempty : gap ≠ [] := by
          rintro rfl
          exact hend (eq_nil_of_stops_not hrest htail)
        have hfinish : Stops isBlank rest.reverse := stops_reverse_of_append (stops_reverse_of_append h.finish)
        refine .cons hword ⟨hnonempty, hgap⟩ (ih rest.length ?_ ⟨hrest, hfinish⟩ hend rfl)
        have := List.length_pos_iff.2 hnonempty
        simp only [List.length_append] at hn
        omega

end Words

end ArgumentDiagram.Text
