import ArgumentDiagram.Proofs.Script.Grammar
import ArgumentDiagram.Proofs.Text.Pattern
import Mathlib.Data.List.Basic
import Mathlib.Data.List.TakeWhile

/-!
Scripts read by patterns. A relation is tried before a claim, and the mark of an assumption before a line without
it. Main statement: the statements of a text are those that the patterns find in its lines, and these are the
statements of the grammar.
-/

namespace ArgumentDiagram.Script

open Text Pattern

abbrev blank : Pattern := .char isBlank

abbrev letter : Pattern := .char isLetter

/-- The variable and the colon: `\s*([a-z]+)\s*:`. -/
def opening : List Pattern := [.many blank, .group 1 (.plus letter), .many blank, .literal [':']]

/-- The mark of an assumption: `(assume\s+)?`. -/
def mark : Pattern := .optional (.group 2 (.seq (.literal assumeWord) (.plus blank)))

/-- The verb and the target: `(supports|attacks)\s+([a-z]+)$`. -/
def ending : List Pattern :=
  [.group 4 (.either (.literal "supports".toList) (.literal "attacks".toList)), .plus blank,
    .group 5 (.plus letter), .atEnd]

/-- The sources before the verb: `((?:[a-z]+\s+)+)`. -/
def arrow : List Pattern := .group 3 (.plus (.seq (.plus letter) (.plus blank))) :: ending

/-- The text of a claim: `(.+?)\s*$`. -/
def remark : List Pattern := [.group 3 (.plusFew (.char (· != '\n'))), .many blank, .atEnd]

def relationPattern : Pattern := .inOrder (opening ++ .many blank :: mark :: arrow)

def claimPattern : Pattern := .inOrder (opening ++ .many blank :: mark :: remark)

/-- What a group has taken. -/
def taken (caught : Captures) (number : Nat) : List Char := (caught.lookup number).getD []

def ofRelation (number : Nat) (caught : Captures) : Statement where
  line := number
  name := .ofList (taken caught 1)
  assumption := (caught.lookup 2).isSome
  kind := .relation ((words (taken caught 3)).map .ofList)
    (if taken caught 4 = "supports".toList then .support else .attack) (.ofList (taken caught 5))

def ofClaim (number : Nat) (caught : Captures) : Statement where
  line := number
  name := .ofList (taken caught 1)
  assumption := (caught.lookup 2).isSome
  kind := .claim (.ofList (taken caught 3))

/-- The statement that the patterns find in a line, without the blanks at its end. -/
def byPatterns (number : Nat) (line : List Char) : Option Statement :=
  match relationPattern.find? (trimEnd line) with
  | some caught => some (ofRelation number caught)
  | none => (claimPattern.find? (trimEnd line)).map (ofClaim number)

variable {text name rest : List Char} {caught found : Captures}

theorem letter_avoids_blank : (plus letter).Avoids isBlank := (Avoids.char fun _ => isLetter_of_isBlank).seq _

theorem blank_avoids_letter : (plus blank).Avoids isLetter := (Avoids.char fun _ => isBlank_of_isLetter).seq _

/-- A gap and a colon do not begin with a letter. -/
theorem rejects_gap (next : Continuation) : Rejects (fun rest caught => (many blank).run rest caught
    fun rest caught => (literal [':']).run rest caught next) isLetter := by
  intro c rest caught hc
  have hcolon : (literal [':']).Avoids isBlank := .literal rfl []
  have hstop : Stops isBlank (c :: rest) := stops_cons.2 (isBlank_of_isLetter hc)
  dsimp only
  rw [run_many_char fun _ d others hd _ => hcolon d others caught next hd, dropWhile_eq_self hstop]
  exact Avoids.literal (p := isLetter) rfl [] c rest caught next hc

theorem run_opening (others : List Pattern) (next : Continuation) :
    (inOrder (opening ++ others)).run text caught next = some found ↔
      ∃ name rest, Opens text name rest ∧ (inOrder others).run rest ((1, name) :: caught) next = some found := by
  have hname : ∀ next, Rejects (fun rest caught => (group 1 (plus letter)).run rest caught next) isBlank :=
    (letter_avoids_blank.group 1).rejects
  have hcolon : ∀ next, Rejects (fun rest caught => (literal [':']).run rest caught next) isBlank :=
    (Avoids.literal rfl []).rejects
  simp only [opening, List.cons_append, List.nil_append, run_inOrder_cons]
  constructor
  · intro h
    obtain ⟨indent, tail, rfl, hindent, h⟩ := (takes_many_char isBlank _ (hname _) ..).1 h
    obtain ⟨name, tail, rfl, hletters, h⟩ := ((takes_plus_char isLetter).run_group (rejects_gap _) 1).1 h
    obtain ⟨gap, tail, rfl, hgap, h⟩ := (takes_many_char isBlank _ (hcolon _) ..).1 h
    obtain ⟨rest, rfl, h⟩ := (run_literal _).1 h
    exact ⟨name, rest, ⟨indent, gap, hindent, hgap, isName_iff.2 hletters, rfl⟩, h⟩
  · rintro ⟨name, rest, ⟨indent, gap, hindent, hgap, hletters, rfl⟩, h⟩
    refine (takes_many_char isBlank _ (hname _) ..).2 ⟨indent, _, rfl, hindent, ?_⟩
    refine ((takes_plus_char isLetter).run_group (rejects_gap _) 1).2 ⟨name, _, rfl, isName_iff.1 hletters, ?_⟩
    refine (takes_many_char isBlank _ (hcolon _) ..).2 ⟨gap, _, rfl, hgap, ?_⟩
    exact (run_literal _).2 ⟨rest, rfl, h⟩

/-- All the groups, once the end is reached. -/
abbrev finish : Continuation := fun _ caught => some caught

/-- A name and the gap behind it. -/
def IsStep (text : List Char) : Prop := ∃ word gap, text = word ++ gap ∧ isName word ∧ IsGap gap

theorem takes_name : (plus letter).Takes (fun word => isName word) isLetter := by
  intro next hnext text caught found
  simp only [isName_iff]
  exact takes_plus_char isLetter next hnext text caught found

theorem takes_gap : (plus blank).Takes IsGap isBlank := by
  intro next hnext text caught found
  have hgap : ∀ gap, IsGap gap ↔ gap ≠ [] ∧ ∀ c ∈ gap, isBlank c = true := fun gap =>
    ⟨fun h => ⟨h.nonempty, h.blank⟩, fun h => ⟨h.1, h.2⟩⟩
  simp only [hgap]
  exact takes_plus_char isBlank next hnext text caught found

theorem takes_step : (seq (plus letter) (plus blank)).Takes IsStep isBlank :=
  takes_name.seq takes_gap blank_avoids_letter

theorem takes_verb (p : Char → Bool) : (either (literal "supports".toList) (literal "attacks".toList)).Takes
    (fun verb => ∃ kind, IsVerb verb kind) p := by
  intro next _ text caught found
  rw [run_either, Option.or_eq_some_iff, run_literal, run_literal]
  constructor
  · rintro (⟨rest, rfl, h⟩ | ⟨-, rest, rfl, h⟩)
    · exact ⟨_, rest, rfl, ⟨_, .supports⟩, h⟩
    · exact ⟨_, rest, rfl, ⟨_, .attacks⟩, h⟩
  · rintro ⟨_, rest, rfl, ⟨kind, (_ | _)⟩, h⟩
    · exact .inl ⟨rest, rfl, h⟩
    · exact .inr ⟨rfl, rest, rfl, h⟩

/-- Names with the gaps behind them are what stands in front of a verb. -/
theorem repeated_isStep {text : List Char} :
    Repeated IsStep text ↔ ∃ ws, Leading ws text ∧ ∀ word ∈ ws, isName word := by
  constructor
  · intro h
    induction h with
    | nil => exact ⟨[], .nil, List.forall_mem_nil _⟩
    | cons hfirst _ ih =>
        obtain ⟨word, gap, rfl, hword, hgap⟩ := hfirst
        obtain ⟨ws, hws, hnames⟩ := ih
        refine ⟨word :: ws, ?_, List.forall_mem_cons.2 ⟨hword, hnames⟩⟩
        rw [List.append_assoc]
        exact .cons (isWord_of_isName hword) hgap hws
  · rintro ⟨ws, hws, hnames⟩
    induction hws with
    | nil => exact .nil
    | @cons word gap rest ws _ hgap _ ih =>
        obtain ⟨hword, hrest⟩ := List.forall_mem_cons.1 hnames
        rw [← List.append_assoc]
        exact .cons ⟨word, gap, rfl, hword, hgap⟩ (ih hrest)

theorem steps_iff {lead : List Char} :
    (∃ first more, lead = first ++ more ∧ IsStep first ∧ Repeated IsStep more) ↔
      ∃ ws, Leading ws lead ∧ ws ≠ [] ∧ ∀ word ∈ ws, isName word := by
  constructor
  · rintro ⟨first, more, rfl, hfirst, hmore⟩
    obtain ⟨ws, hws, hnames⟩ := repeated_isStep.1 (.cons hfirst hmore)
    refine ⟨ws, hws, ?_, hnames⟩
    rintro rfl
    obtain ⟨word, gap, rfl, hword, -⟩ := hfirst
    have hnil : word ++ gap ++ more = [] := by
      generalize word ++ gap ++ more = text at hws
      cases hws
      rfl
    simp [(isName_iff.1 hword).1] at hnil
  · rintro ⟨ws, hws, hne, hnames⟩
    cases hws with
    | nil => exact absurd rfl hne
    | @cons word gap rest ws _ hgap h =>
        obtain ⟨hword, hrest⟩ := List.forall_mem_cons.1 hnames
        exact ⟨word ++ gap, rest, by simp, ⟨word, gap, rfl, hword, hgap⟩, repeated_isStep.2 ⟨ws, h, hrest⟩⟩

theorem run_end : (inOrder [.atEnd]).run text caught finish = some found ↔ text = [] ∧ found = caught := by
  cases text with
  | nil => simp [inOrder, run, eq_comm]
  | cons c rest => simp [inOrder, run]

theorem isName_of_isVerb {verb : List Char} {kind : RelationKind} (h : IsVerb verb kind) : isName verb := by
  cases h <;> rfl

/-- A verb and a target. -/
structure IsEnding (verb gap target : List Char) (kind : RelationKind) : Prop where
  verb : IsVerb verb kind
  gap : IsGap gap
  target : isName target

/-- Sources with the gaps behind them, a verb and a target. -/
structure IsArrow (ws : List (List Char)) (lead verb gap target : List Char) (kind : RelationKind) : Prop
    extends IsEnding verb gap target kind where
  leading : Leading ws lead
  nonempty : ws ≠ []
  names : ∀ word ∈ ws, isName word

section Arrows

variable {ws : List (List Char)} {lead verb gap target : List Char} {kind : RelationKind}

theorem IsEnding.spaced (h : IsEnding verb gap target kind) : Spaced [verb, target] (verb ++ (gap ++ target)) :=
  .cons (isWord_of_isName (isName_of_isVerb h.verb)) h.gap (.one (isWord_of_isName h.target))

theorem IsArrow.spaced (h : IsArrow ws lead verb gap target kind) :
    Spaced (ws ++ [verb, target]) (lead ++ (verb ++ (gap ++ target))) :=
  .append h.leading h.toIsEnding.spaced

theorem IsArrow.allNames (h : IsArrow ws lead verb gap target kind) : ∀ word ∈ ws ++ [verb, target], isName word :=
  List.forall_mem_append.2 ⟨h.names, List.forall_mem_cons.2
    ⟨isName_of_isVerb h.verb, List.forall_mem_singleton.2 h.target⟩⟩

/-- The first source can be taken off if another one is behind it. -/
theorem IsArrow.tail {first : List Char} {more : List (List Char)}
    (h : IsArrow (first :: more) lead verb gap target kind) (hmore : more ≠ []) :
    ∃ mid rest, lead = first ++ (mid ++ rest) ∧ IsGap mid ∧ IsArrow more rest verb gap target kind := by
  obtain ⟨hending, hleading, -, hnames⟩ := h
  cases hleading with
  | cons _ hmid hrest => exact ⟨_, _, rfl, hmid, hending, hrest, hmore, (List.forall_mem_cons.1 hnames).2⟩

end Arrows

theorem run_ending : (inOrder ending).run text caught finish = some found ↔
    ∃ verb gap target kind, text = verb ++ (gap ++ target) ∧ IsEnding verb gap target kind ∧
      found = (5, target) :: (4, verb) :: caught := by
  have hend : ∀ p, Rejects (fun rest caught => (inOrder [.atEnd]).run rest caught finish) p := fun _ _ _ _ _ => rfl
  have htarget := (letter_avoids_blank.group 5).rejects fun rest caught => (inOrder [.atEnd]).run rest caught finish
  rw [ending, run_inOrder_cons, (takes_verb _).run_group (rejects_nothing _)]
  constructor
  · rintro ⟨verb, tail, rfl, ⟨kind, hverb⟩, h⟩
    obtain ⟨gap, tail, rfl, hgap, h⟩ := (takes_gap _ htarget ..).1 h
    obtain ⟨target, rest, rfl, hname, h⟩ := (takes_name.run_group (hend _) 5).1 h
    obtain ⟨rfl, rfl⟩ := run_end.1 h
    exact ⟨verb, gap, target, kind, by simp, ⟨hverb, hgap, hname⟩, rfl⟩
  · rintro ⟨verb, gap, target, kind, rfl, ⟨hverb, hgap, hname⟩, rfl⟩
    refine ⟨verb, gap ++ target, rfl, ⟨kind, hverb⟩, (takes_gap _ htarget ..).2 ⟨gap, target, rfl, hgap, ?_⟩⟩
    exact (takes_name.run_group (hend _) 5).2 ⟨target, [], by simp, hname, run_end.2 ⟨rfl, rfl⟩⟩

/-- Two words are left behind the last source, so a text cannot end and have a source in front of the same end. -/
theorem run_ending_of_step {first more : List Char} {caught' : Captures} (hfirst : IsStep first)
    (hmore : Repeated IsStep more) (hsome : ((inOrder ending).run rest caught finish).isSome) :
    (inOrder ending).run (first ++ (more ++ rest)) caught' finish = none := by
  obtain ⟨found, hfound⟩ := Option.isSome_iff_exists.1 hsome
  obtain ⟨verb, gap, target, kind, rfl, hending, -⟩ := run_ending.1 hfound
  obtain ⟨ws, hws, hne, -⟩ := steps_iff.1 ⟨first, more, rfl, hfirst, hmore⟩
  have hlong := words_of_spaced (.append hws hending.spaced)
  refine Option.eq_none_iff_forall_ne_some.2 fun other hother => ?_
  obtain ⟨verb', gap', target', kind', htext, hending', -⟩ := run_ending.1 hother
  have hshort := words_of_spaced hending'.spaced
  rw [← htext, ← List.append_assoc, hlong] at hshort
  have hlength := congrArg List.length hshort
  exact hne (by simpa using hlength)

theorem run_arrow : (inOrder arrow).run text caught finish = some found ↔
    ∃ ws lead verb gap target kind, text = lead ++ (verb ++ (gap ++ target)) ∧
      IsArrow ws lead verb gap target kind ∧ found = (5, target) :: (4, verb) :: (3, lead) :: caught := by
  have hverb : (inOrder ending).Avoids isBlank :=
    (((Avoids.literal rfl _).either (Avoids.literal rfl _)).group 4).seq _
  have hstep : ∀ first, IsStep first → first ≠ [] := by
    rintro _ ⟨word, gap, rfl, hword, -⟩
    simp [(isName_iff.1 hword).1]
  rw [arrow, run_inOrder_cons, run_group_iff 3 fun note => run_plus_iff takes_step (letter_avoids_blank.seq _) hstep
    (fun c rest caught hc => hverb c rest _ _ hc) (fun _ _ _ _ => run_ending_of_step)]
  constructor
  · rintro ⟨lead, rest, rfl, hsteps, h⟩
    obtain ⟨ws, hlead, hne, hnames⟩ := steps_iff.1 hsteps
    obtain ⟨verb, gap, target, kind, rfl, hending, rfl⟩ := run_ending.1 h
    exact ⟨ws, lead, verb, gap, target, kind, rfl, ⟨hending, hlead, hne, hnames⟩, rfl⟩
  · rintro ⟨ws, lead, verb, gap, target, kind, rfl, ⟨hending, hlead, hne, hnames⟩, rfl⟩
    exact ⟨lead, _, rfl, steps_iff.2 ⟨ws, hlead, hne, hnames⟩,
      run_ending.2 ⟨verb, gap, target, kind, rfl, hending, rfl⟩⟩

/-- What the group of the mark notes. -/
def Notes (assumption : Bool) (marks : Captures) : Prop :=
  if assumption then ∃ word, marks = [(2, word)] else marks = []

/-- The line is read behind the mark if it can be, and else from the mark on. -/
theorem run_mark (others : List Pattern) : (inOrder (mark :: others)).run text caught finish =
    ((group 2 (seq (literal assumeWord) (plus blank))).run text caught fun rest caught =>
      (inOrder others).run rest caught finish).or ((inOrder others).run text caught finish) := rfl

theorem run_marked {body : List Char} {next : Continuation} (hnext : Rejects next isBlank) :
    (group 2 (seq (literal assumeWord) (plus blank))).run body caught next = some found ↔
      ∃ gap rest, body = assumeWord ++ (gap ++ rest) ∧ IsGap gap ∧
        next rest ((2, assumeWord ++ gap) :: caught) = some found := by
  rw [((takes_literal assumeWord isLetter).seq takes_gap blank_avoids_letter).run_group hnext]
  constructor
  · rintro ⟨_, rest, rfl, ⟨_, gap, rfl, rfl, hgap⟩, h⟩
    exact ⟨gap, rest, by simp, hgap, h⟩
  · rintro ⟨gap, rest, rfl, hgap, h⟩
    exact ⟨assumeWord ++ gap, rest, by simp, ⟨assumeWord, gap, rfl, rfl, hgap⟩, h⟩

theorem arrow_avoids_blank : (inOrder arrow).Avoids isBlank := ((letter_avoids_blank.seq _).seq _).group 3 |>.seq _

section Relations

variable {ws : List (List Char)} {lead verb gap target : List Char} {kind : RelationKind}

theorem IsArrow.run (h : IsArrow ws lead verb gap target kind) (caught : Captures) :
    (inOrder arrow).run (lead ++ (verb ++ (gap ++ target))) caught finish =
      some ((5, target) :: (4, verb) :: (3, lead) :: caught) :=
  run_arrow.2 ⟨ws, lead, verb, gap, target, kind, rfl, h, rfl⟩

/-- Behind the mark, what is a source is none but a source. -/
theorem IsArrow.says_marked (h : IsArrow ws lead verb gap target kind) {mid : List Char} (hmid : IsGap mid) :
    SaysRelation (assumeWord ++ (mid ++ (lead ++ (verb ++ (gap ++ target))))) true (words lead) kind target := by
  have hassume : isName assumeWord := rfl
  have hpos := List.length_pos_iff.2 h.nonempty
  refine ⟨assumeWord :: ws, verb, .cons (isWord_of_isName hassume) hmid h.spaced, by simp,
    List.forall_mem_cons.2 ⟨hassume, h.allNames⟩, h.verb, ⟨fun _ => ⟨rfl, ?_⟩, fun _ => rfl⟩,
    words_of_leading h.leading⟩
  simp
  omega

/-- Without another source behind it, the mark is a source. -/
theorem IsArrow.says_unmarked (h : IsArrow ws lead verb gap target kind)
    (hmark : ∀ more, ws = assumeWord :: more → more = []) :
    SaysRelation (lead ++ (verb ++ (gap ++ target))) false (words lead) kind target := by
  refine ⟨ws, verb, h.spaced, h.nonempty, h.allNames, h.verb, ⟨fun hfalse => (by cases hfalse), ?_⟩,
    words_of_leading h.leading⟩
  rintro ⟨hhead, hlength⟩
  obtain ⟨more, rfl⟩ : ∃ more, ws = assumeWord :: more := List.head?_eq_some_iff.1 hhead
  obtain rfl := hmark more rfl
  simp at hlength

end Relations

/-- What the patterns find of a relation is what the grammar says. -/
theorem says_of_run {body : List Char} (h : (inOrder (mark :: arrow)).run body caught finish = some found) :
    ∃ assumption lead verb kind target marks, SaysRelation body assumption (words lead) kind target ∧
      IsVerb verb kind ∧ Notes assumption marks ∧
      found = (5, target) :: (4, verb) :: (3, lead) :: (marks ++ caught) := by
  have hmarked := fun found => @run_marked caught found body _ (arrow_avoids_blank.rejects finish)
  rw [run_mark, Option.or_eq_some_iff] at h
  rcases h with h | ⟨hnone, h⟩
  · obtain ⟨mid, rest, rfl, hmid, h⟩ := (hmarked _).1 h
    obtain ⟨ws, lead, verb, gap, target, kind, rfl, harrow, rfl⟩ := run_arrow.1 h
    exact ⟨true, lead, verb, kind, target, [(2, assumeWord ++ mid)], harrow.says_marked hmid, harrow.verb, ⟨_, rfl⟩,
      rfl⟩
  · obtain ⟨ws, lead, verb, gap, target, kind, rfl, harrow, rfl⟩ := run_arrow.1 h
    refine ⟨false, lead, verb, kind, target, [], harrow.says_unmarked ?_, harrow.verb, rfl, rfl⟩
    rintro more rfl
    -- With another source behind the mark, the line would have been read from there on.
    by_contra hmore
    obtain ⟨mid, rest, rfl, hmid, hrest⟩ := harrow.tail hmore
    have hsome := (hmarked _).2 ⟨mid, _, by simp, hmid, hrest.run _⟩
    cases hnone.symm.trans hsome

/-- The patterns find a relation wherever the grammar says that there is one. -/
theorem exists_run_of_says {body : List Char} {assumption : Bool} {sources : List (List Char)} {kind : RelationKind}
    {target : List Char} (h : SaysRelation body assumption sources kind target) (caught : Captures) :
    ∃ found, (inOrder (mark :: arrow)).run body caught finish = some found := by
  obtain ⟨ws, verb, hspaced, hne, hnames, hverb, -, -⟩ := h
  obtain ⟨lead, rest, rfl, hlead, hrest⟩ := hspaced.exists_append (by simp)
  obtain ⟨gap, rfl, hgap⟩ : ∃ gap, rest = verb ++ (gap ++ target) ∧ IsGap gap := by
    cases hrest with
    | cons _ hgap h =>
        cases h with
        | one _ => exact ⟨_, rfl, hgap⟩
        | cons _ _ h => cases h
  have harrow : IsArrow ws lead verb gap target kind :=
    ⟨⟨hverb, hgap, hnames target (by simp)⟩, hlead, hne, fun word hmem => hnames word (by simp [hmem])⟩
  rw [run_mark, harrow.run]
  exact Option.isSome_iff_exists.1 (by simp)

/-- A repetition that takes as little as possible takes everything, if nothing less can be gone on from. -/
theorem run_few_char {p : Char → Bool} {next : Continuation} (htext : ∀ c ∈ text, p c = true)
    (hnext : ∀ rest, rest <:+ text → rest ≠ [] → next rest caught = none) :
    (few (.char p)).run text caught next = next [] caught := by
  induction text with
  | nil =>
      rw [run_few]
      exact Option.or_none
  | cons c rest ih =>
      obtain ⟨hc, hrest⟩ := List.forall_mem_cons.1 htext
      rw [run_few, run_char_cons, if_pos hc, if_pos (by simp), hnext _ (List.suffix_refl _) (by simp), Option.none_or]
      exact ih hrest fun others hsuffix => hnext others (hsuffix.trans (List.suffix_cons c rest))

theorem run_trail : (inOrder [.many blank, .atEnd]).run text caught finish = some found ↔
    (∀ c ∈ text, isBlank c) ∧ found = caught := by
  rw [run_inOrder_cons, run_many_char fun _ _ _ _ _ => rfl, run_end, List.dropWhile_eq_nil_iff]

/-- A text that ends in no blank is taken as a whole. -/
theorem run_remark (hne : text ≠ []) (hfinish : Stops isBlank text.reverse) (hline : '\n' ∉ text) :
    (inOrder remark).run text caught finish = some ((3, text) :: caught) := by
  obtain ⟨c, rest, rfl⟩ := List.exists_cons_of_ne_nil hne
  have hdots : ∀ d ∈ c :: rest, (d != '\n') = true := fun d hd => bne_iff_ne.2 fun h => hline (h ▸ hd)
  obtain ⟨hc, hrest⟩ := List.forall_mem_cons.1 hdots
  rw [remark, run_inOrder_cons, run_group, plusFew, run_seq, run_char_cons, if_pos hc, run_few_char hrest]
  · rw [run_trail.2 ⟨List.forall_mem_nil _, rfl⟩]
    simp
  · intro others hsuffix hnonempty
    refine Option.eq_none_iff_forall_ne_some.2 fun other hother => hnonempty ?_
    obtain ⟨front, hfront⟩ := hsuffix.trans (List.suffix_cons c rest)
    have hstop : Stops isBlank others.reverse := stops_reverse_of_append (hfront ▸ hfinish)
    have hblank : ∀ d ∈ others.reverse, isBlank d = true := fun d hd =>
      (run_trail.1 hother).1 d (List.mem_reverse.1 hd)
    exact List.reverse_eq_nil_iff.1 (eq_nil_of_stops hblank hstop)

/-- The mark takes all the blanks behind it, if what follows can be read. -/
theorem run_marked_longest {next : Continuation} {gap : List Char} (hgap : IsGap gap) (htext : Stops isBlank text)
    (hnext : next text ((2, assumeWord ++ gap) :: caught) = some found) :
    (group 2 (seq (literal assumeWord) (plus blank))).run (assumeWord ++ (gap ++ text)) caught next = some found := by
  have hnote : (assumeWord ++ (gap ++ text)).take ((assumeWord ++ (gap ++ text)).length - text.length) =
      assumeWord ++ gap := by
    rw [← List.append_assoc, List.length_append, Nat.add_sub_cancel, List.take_left]
  rw [run_group, run_seq, run_literal]
  refine ⟨gap ++ text, rfl, ?_⟩
  rw [← hnote] at hnext
  obtain ⟨c, others, rfl⟩ := List.exists_cons_of_ne_nil hgap.nonempty
  obtain ⟨hc, hothers⟩ := List.forall_mem_cons.1 hgap.blank
  rw [List.cons_append, plus, run_seq, run_char_cons, if_pos hc, run_many_char, dropWhile_append hothers htext]
  · exact hnext
  · intro hnone
    rw [dropWhile_append hothers htext] at hnone
    cases hnone.symm.trans hnext

/-- Without a gap behind it, the mark is no mark. -/
theorem run_unmarked {body : List Char} {next : Continuation} (hbody : ∀ rest, ¬IsMarked body rest) :
    (group 2 (seq (literal assumeWord) (plus blank))).run body caught next = none := by
  refine Option.eq_none_iff_forall_ne_some.2 fun found h => ?_
  rw [run_group, run_seq, run_literal] at h
  obtain ⟨rest, rfl, h⟩ := h
  cases rest with
  | nil => simp [plus, run] at h
  | cons c rest =>
      rw [plus, run_seq, run_char_cons] at h
      split at h
      next hc => exact hbody rest ⟨[c], ⟨by simp, by simpa using hc⟩, rfl⟩
      next => cases h

theorem run_claim {body : List Char} {assumption : Bool} (h : SaysClaim body assumption text) (hline : '\n' ∉ body) :
    ∃ marks, Notes assumption marks ∧
      (inOrder (mark :: remark)).run body caught finish = some ((3, text) :: (marks ++ caught)) := by
  obtain ⟨hne, htight, h⟩ := h
  rw [run_mark]
  cases assumption with
  | true =>
      obtain ⟨gap, hgap, rfl⟩ := h
      have htext : '\n' ∉ text := fun hmem => hline (by simp [hmem])
      refine ⟨[(2, assumeWord ++ gap)], ⟨_, rfl⟩, ?_⟩
      rw [run_marked_longest hgap htight.start (run_remark hne htight.finish htext)]
      rfl
  | false =>
      obtain ⟨rfl, hunmarked⟩ := h
      refine ⟨[], rfl, ?_⟩
      rw [run_unmarked hunmarked, Option.none_or]
      exact run_remark hne htight.finish hline

/-! ### Lines -/

variable {line body : List Char}

theorem Heads.subset (h : Heads line name body) : ∀ c ∈ body, c ∈ line := by
  obtain ⟨indent, gap, lead, trail, -, -, -, -, -, -, -, rfl⟩ := h
  intro c hc
  simp [hc]

theorem SaysRelation.nonempty {assumption : Bool} {sources : List (List Char)} {kind : RelationKind}
    {target : List Char} (h : SaysRelation body assumption sources kind target) : body ≠ [] := by
  rintro rfl
  obtain ⟨lead, verb, hspaced, -⟩ := h
  simpa using words_of_spaced hspaced

theorem find?_relation : relationPattern.find? (trimEnd line) = some found ↔
    ∃ name body, Heads line name body ∧ (inOrder (mark :: arrow)).run body [(1, name)] finish = some found := by
  have hmark : (group 2 (seq (literal assumeWord) (plus blank))).Avoids isBlank :=
    ((Avoids.literal rfl _).seq _).group 2
  have hblank : Rejects (fun rest caught => (inOrder (mark :: arrow)).run rest caught finish) isBlank := by
    intro c rest caught hc
    dsimp only
    rw [run_mark, hmark c rest caught _ hc, arrow_avoids_blank c rest caught _ hc]
    rfl
  have hbody : ∀ rest caught, (inOrder (.many blank :: mark :: arrow)).run rest caught finish =
      (inOrder (mark :: arrow)).run (rest.dropWhile isBlank) caught finish := by
    intro rest caught
    rw [run_inOrder_cons, run_many_char fun _ c others hc _ => hblank c others _ hc]
  rw [relationPattern, find?, run_opening]
  refine exists_congr fun name => ?_
  constructor
  · rintro ⟨rest, hopens, h⟩
    rw [hbody] at h
    obtain ⟨_, _, _, _, _, _, hsays, -⟩ := says_of_run h
    exact ⟨_, heads_iff.2 ⟨rest, hopens, rfl, hsays.nonempty⟩, h⟩
  · rintro ⟨body, hheads, h⟩
    obtain ⟨rest, hopens, rfl, -⟩ := heads_iff.1 hheads
    exact ⟨rest, hopens, (hbody ..).trans h⟩

/-- A claim begins with no blank, although any character may stand in it. -/
theorem run_claim_behind (hfinish : Stops isBlank text.reverse) (hline : '\n' ∉ text) :
    (inOrder (.many blank :: mark :: remark)).run text caught finish =
      (inOrder (mark :: remark)).run (text.dropWhile isBlank) caught finish := by
  rw [run_inOrder_cons, run_many_char]
  intro hnone c others hc hsuffix
  obtain ⟨lead, body, rfl, hlead, hbody⟩ := exists_cut isBlank text
  rw [dropWhile_append hlead hbody] at hnone
  have htight : Tight body := ⟨hbody, stops_reverse_of_append hfinish⟩
  by_cases hne : body = []
  · subst hne
    have hnil := eq_nil_of_stops (fun d hd => by simpa using hlead d (by simpa using hd)) hfinish
    rw [List.reverse_eq_nil_iff.1 hnil, List.suffix_nil] at hsuffix
    cases hsuffix
  · obtain ⟨said, hsays, -⟩ := claim_says htight hne
    obtain ⟨marks, -, hfound⟩ := run_claim hsays (fun hmem => hline (by simp [hmem]))
    cases hnone.symm.trans hfound

theorem find?_claim (hline : '\n' ∉ line) : claimPattern.find? (trimEnd line) = some found ↔
    ∃ name body, Heads line name body ∧ (inOrder (mark :: remark)).run body [(1, name)] finish = some found := by
  have hbody : ∀ {name rest}, Opens (trimEnd line) name rest → ∀ caught,
      (inOrder (.many blank :: mark :: remark)).run rest caught finish =
        (inOrder (mark :: remark)).run (rest.dropWhile isBlank) caught finish := by
    intro name rest hopens caught
    refine run_claim_behind (hopens.finish (stops_trimEnd line)) fun hmem => hline ?_
    obtain ⟨indent, gap, -, -, -, htext⟩ := hopens
    obtain ⟨trail, -, hwhole⟩ := exists_trimEnd line
    rw [hwhole, htext]
    simp [hmem]
  rw [claimPattern, find?, run_opening]
  refine exists_congr fun name => ?_
  constructor
  · rintro ⟨rest, hopens, h⟩
    rw [hbody hopens] at h
    refine ⟨_, heads_iff.2 ⟨rest, hopens, rfl, fun hnil => ?_⟩, h⟩
    rw [hnil] at h
    cases h
  · rintro ⟨body, hheads, h⟩
    obtain ⟨rest, hopens, rfl, -⟩ := heads_iff.1 hheads
    exact ⟨rest, hopens, (hbody hopens _).trans h⟩

theorem ofRelation_eq {assumption : Bool} {marks : Captures} {lead verb target : List Char} {kind : RelationKind}
    (hmarks : Notes assumption marks) (hverb : IsVerb verb kind) (number : Nat) :
    ofRelation number ((5, target) :: (4, verb) :: (3, lead) :: (marks ++ [(1, name)])) =
      ⟨number, .ofList name, assumption, .relation ((words lead).map .ofList) kind (.ofList target)⟩ := by
  cases assumption with
  | true =>
      obtain ⟨word, rfl⟩ := hmarks
      cases hverb <;> rfl
  | false =>
      obtain rfl := hmarks
      cases hverb <;> rfl

theorem ofClaim_eq {assumption : Bool} {marks : Captures} (hmarks : Notes assumption marks) (number : Nat) :
    ofClaim number ((3, text) :: (marks ++ [(1, name)])) =
      ⟨number, .ofList name, assumption, .claim (.ofList text)⟩ := by
  cases assumption with
  | true =>
      obtain ⟨word, rfl⟩ := hmarks
      rfl
  | false =>
      obtain rfl := hmarks
      rfl

/-- The patterns find the statement of a line, and none where there is none. -/
theorem byPatterns_eq (number : Nat) (hline : '\n' ∉ line) : byPatterns number line = statement? number line := by
  rw [byPatterns]
  cases hrelation : relationPattern.find? (trimEnd line) with
  | some found =>
      obtain ⟨name, body, hheads, h⟩ := find?_relation.1 hrelation
      obtain ⟨assumption, lead, verb, kind, target, marks, hsays, hverb, hmarks, rfl⟩ := says_of_run h
      refine (statement?_eq_some.2 ⟨?_, name, body, hheads, ?_⟩).symm <;> rw [ofRelation_eq hmarks hverb]
      exact ⟨rfl, .relation hsays⟩
  | none =>
      have hsays : ∀ {name body}, Heads line name body → ∃ assumption text,
          Says body assumption (.claim (.ofList text)) ∧ ∃ marks, Notes assumption marks ∧
            (inOrder (mark :: remark)).run body [(1, name)] finish = some ((3, text) :: (marks ++ [(1, name)])) := by
        intro name body hheads
        obtain ⟨text, hclaim, -⟩ := claim_says hheads.tight hheads.nonempty
        refine ⟨_, text, .claim (fun assumption sources kind target h => ?_) hclaim,
          run_claim hclaim fun hmem => hline (hheads.subset _ hmem)⟩
        obtain ⟨found, hfound⟩ := exists_run_of_says h [(1, name)]
        cases hrelation.symm.trans (find?_relation.2 ⟨name, body, hheads, hfound⟩)
      cases hclaim : claimPattern.find? (trimEnd line) with
      | some found =>
          obtain ⟨name, body, hheads, h⟩ := (find?_claim hline).1 hclaim
          obtain ⟨assumption, text, hsays, marks, hmarks, hfound⟩ := hsays hheads
          obtain rfl := Option.some.inj (h.symm.trans hfound)
          refine (statement?_eq_some.2 ⟨?_, name, body, hheads, ?_⟩).symm <;> rw [ofClaim_eq hmarks]
          exact ⟨rfl, hsays⟩
      | none =>
          refine (Option.eq_none_iff_forall_ne_some.2 fun s hs => ?_).symm
          obtain ⟨-, name, body, hheads, -⟩ := statement?_eq_some.1 hs
          obtain ⟨_, _, -, _, -, hfound⟩ := hsays hheads
          cases hclaim.symm.trans ((find?_claim hline).2 ⟨name, body, hheads, hfound⟩)

/-- The statements of a text are those that the patterns find in its lines, a carriage return at the end of a line
being one of its blanks. They are the statements of the grammar, in the order of their lines and with the numbers
of these: one for every line that names a variable and says something. -/
theorem ofText_reads_grammar (text : String) :
    joinWith '\n' (pieces '\n' text.toList) = text.toList ∧ (∀ line ∈ pieces '\n' text.toList, '\n' ∉ line) ∧
    (ofText text = ((pieces '\n' text.toList).zipIdx 1).filterMap fun (line, number) => byPatterns number line) ∧
    (∀ s, s ∈ ofText text ↔
      ∃ i line, (pieces '\n' text.toList)[i]? = some line ∧ s.line = i + 1 ∧ Reads line s) ∧
    (∀ i line, (pieces '\n' text.toList)[i]? = some line →
      ((∃ s ∈ ofText text, s.line = i + 1) ↔ ∃ name body, Heads line name body)) ∧
    (∀ s ∈ ofText text, ∀ sources kind target, s.kind = .relation sources kind target → sources ≠ []) ∧
    (ofText text).Pairwise (·.line < ·.line) := by
  refine ⟨joinWith_pieces _ _, fun line hmem => notMem_of_mem_pieces hmem, ?_, fun s => mem_ofText,
    fun i line hline => ?_, fun s hs sources kind target hkind => ?_, pairwise_ofText text⟩
  · refine List.filterMap_congr fun ⟨line, number⟩ hmem => ?_
    exact (byPatterns_eq number (notMem_of_mem_pieces (List.fst_mem_of_mem_zipIdx hmem))).symm
  · rw [← exists_reads_iff (i + 1)]
    refine exists_congr fun s => ?_
    rw [mem_ofText]
    constructor
    · rintro ⟨⟨j, other, hother, hnumber, hreads⟩, hi⟩
      obtain rfl : j = i := by omega
      obtain rfl := Option.some.inj (hother.symm.trans hline)
      exact ⟨hi, hreads⟩
    · rintro ⟨hi, hreads⟩
      exact ⟨⟨i, line, hline, hi, hreads⟩, hi⟩
  · obtain ⟨i, line, -, -, hreads⟩ := mem_ofText.1 hs
    exact hreads.sources_ne_nil hkind

end ArgumentDiagram.Script
