import ArgumentDiagram.Proofs.Text.Words
import ArgumentDiagram.Script.Basic

/-!
The grammar of scripts. What a line says is a relation if its words can be one, and a claim otherwise.
-/

namespace ArgumentDiagram.Script

open Text

/-- A line names a variable and says something: nothing but blanks stands around the name and what it says. -/
def Heads (line name body : List Char) : Prop :=
  ∃ indent gap lead trail, (∀ c ∈ indent, isBlank c) ∧ (∀ c ∈ gap, isBlank c) ∧ (∀ c ∈ lead, isBlank c) ∧
    (∀ c ∈ trail, isBlank c) ∧ isName name ∧ body ≠ [] ∧ Tight body ∧
    line = indent ++ (name ++ (gap ++ ':' :: (lead ++ (body ++ trail))))

/-- The words that join sources to a target. -/
inductive IsVerb : List Char → RelationKind → Prop where
  | supports : IsVerb "supports".toList .support
  | attacks : IsVerb "attacks".toList .attack

/-- Three words or more, all of them names, the last but one a verb. If there are four or more, the first may be
the mark of an assumption instead of a source. -/
def SaysRelation (body : List Char) (assumption : Bool) (sources : List (List Char)) (kind : RelationKind)
    (target : List Char) : Prop :=
  ∃ lead verb, Spaced (lead ++ [verb, target]) body ∧ lead ≠ [] ∧
    (∀ word ∈ lead ++ [verb, target], isName word) ∧ IsVerb verb kind ∧
    (assumption = true ↔ lead.head? = some assumeWord ∧ 4 ≤ (lead ++ [verb, target]).length) ∧
    sources = if assumption then lead.tail else lead

/-- A text is marked as an assumption. -/
def IsMarked (body text : List Char) : Prop := ∃ gap, IsGap gap ∧ body = assumeWord ++ (gap ++ text)

/-- A text behind the mark of an assumption, or the whole of what is said. -/
def SaysClaim (body : List Char) (assumption : Bool) (text : List Char) : Prop :=
  text ≠ [] ∧ Tight text ∧ if assumption then IsMarked body text else text = body ∧ ∀ rest, ¬IsMarked body rest

/-- What is said about a variable: a relation if it can be one, else a claim. -/
inductive Says (body : List Char) : Bool → StatementKind → Prop where
  | relation {assumption : Bool} {sources : List (List Char)} {kind : RelationKind} {target : List Char}
      (h : SaysRelation body assumption sources kind target) :
      Says body assumption (.relation (sources.map .ofList) kind (.ofList target))
  | claim {assumption : Bool} {text : List Char}
      (hrelation : ∀ assumption sources kind target, ¬SaysRelation body assumption sources kind target)
      (h : SaysClaim body assumption text) : Says body assumption (.claim (.ofList text))

/-- A statement stands in a line. -/
def Reads (line : List Char) (s : Statement) : Prop :=
  ∃ name body, Heads line name body ∧ s.name = .ofList name ∧ Says body s.assumption s.kind

theorem isName_iff {word : List Char} : isName word ↔ word ≠ [] ∧ ∀ c ∈ word, isLetter c := by
  simp [isName]

theorem isBlank_of_isLetter {c : Char} (h : isLetter c) : isBlank c = false := by
  simp only [isLetter, Bool.and_eq_true, decide_eq_true_eq, Char.le_def, UInt32.le_iff_toNat_le] at h
  have hrange : 97 ≤ c.toNat ∧ c.toNat ≤ 122 := h
  simp [isBlank, inRanges, blanks]
  omega

theorem isLetter_of_isBlank {c : Char} (h : isBlank c) : isLetter c = false := by
  cases hc : isLetter c with
  | false => rfl
  | true => cases h.symm.trans (isBlank_of_isLetter hc)

theorem isWord_of_isName {word : List Char} (h : isName word) : IsWord word := by
  obtain ⟨hne, hletters⟩ := isName_iff.1 h
  exact ⟨hne, fun c hc => isBlank_of_isLetter (hletters c hc)⟩

/-! ### What a line says -/

section Heads

variable {text line name body rest : List Char}

theorem Heads.tight (h : Heads line name body) : Tight body := by
  obtain ⟨-, -, -, -, -, -, -, -, -, -, hbody, -⟩ := h
  exact hbody

theorem Heads.nonempty (h : Heads line name body) : body ≠ [] := by
  obtain ⟨-, -, -, -, -, -, -, -, -, hne, -, -⟩ := h
  exact hne

/-- A text begins with a variable and a colon. -/
def Opens (text name rest : List Char) : Prop :=
  ∃ indent gap, (∀ c ∈ indent, isBlank c) ∧ (∀ c ∈ gap, isBlank c) ∧ isName name ∧
    text = indent ++ (name ++ (gap ++ ':' :: rest))

theorem Opens.finish (h : Opens text name rest) (htext : Stops isBlank text.reverse) :
    Stops isBlank rest.reverse := by
  obtain ⟨indent, gap, -, -, -, rfl⟩ := h
  refine @stops_reverse_of_append _ (indent ++ (name ++ (gap ++ [':']))) _ ?_
  simpa using htext

/-- What is said about a variable begins behind the colon and the blanks there. -/
theorem heads_iff : Heads line name body ↔
    ∃ rest, Opens (trimEnd line) name rest ∧ body = rest.dropWhile isBlank ∧ body ≠ [] := by
  constructor
  · rintro ⟨indent, gap, lead, trail, hindent, hgap, hlead, htrail, hname, hne, hbody, rfl⟩
    have hend : Stops isBlank (indent ++ (name ++ (gap ++ ':' :: (lead ++ body)))).reverse := by
      simpa using hbody.finish.append (by simpa using hne) _
    have htrim := trimEnd_append hend htrail
    refine ⟨lead ++ body, ⟨indent, gap, hindent, hgap, hname, ?_⟩, (dropWhile_append hlead hbody.start).symm, hne⟩
    simpa using htrim
  · rintro ⟨rest, hopens, rfl, hne⟩
    have hfinish := hopens.finish (stops_trimEnd line)
    obtain ⟨indent, gap, hindent, hgap, hname, htext⟩ := hopens
    obtain ⟨trail, htrail, hline⟩ := exists_trimEnd line
    obtain ⟨lead, body, rfl, hlead, hbody⟩ := exists_cut isBlank rest
    rw [dropWhile_append hlead hbody] at hne ⊢
    refine ⟨indent, gap, lead, trail, hindent, hgap, hlead, htrail, hname, hne,
      ⟨hbody, stops_reverse_of_append hfinish⟩, ?_⟩
    simpa [htext] using hline

/-- Behind a name, neither a gap nor the colon is a letter. -/
theorem stops_isLetter {gap : List Char} (hgap : ∀ c ∈ gap, isBlank c) (rest : List Char) :
    Stops isLetter (gap ++ ':' :: rest) := by
  cases gap with
  | nil => exact stops_cons.2 rfl
  | cons c others => exact stops_cons.2 (isLetter_of_isBlank (hgap c (by simp)))

theorem header?_eq_some_iff_opens : header? text = some (name, body) ↔
    ∃ rest, Opens text name rest ∧ body = trim rest ∧ body ≠ [] := by
  constructor
  · intro h
    rw [header?] at h
    dsimp only at h
    split at h
    next rest hcolon =>
      split at h
      · cases h
      next hnonempty =>
        obtain ⟨rfl, rfl⟩ := Prod.mk.inj (Option.some.inj h)
        -- The text is cut where the heading cut it.
        obtain ⟨indent, start, rfl, hindent, hstart⟩ := exists_cut isBlank text
        rw [dropWhile_append hindent hstart] at hcolon hnonempty ⊢
        obtain ⟨name, tail, rfl, hname, htail⟩ := exists_cut isLetter start
        rw [dropWhile_append hname htail] at hcolon
        rw [takeWhile_append hname htail] at hnonempty ⊢
        obtain ⟨gap, tail, rfl, hgap, htail⟩ := exists_cut isBlank tail
        rw [dropWhile_append hgap htail] at hcolon
        subst hcolon
        obtain ⟨hne, hnone⟩ : name ≠ [] ∧ trim rest ≠ [] := by simpa using hnonempty
        exact ⟨rest, ⟨indent, gap, hindent, hgap, isName_iff.2 ⟨hne, hname⟩, rfl⟩, rfl, hnone⟩
    next => cases h
  · rintro ⟨rest, ⟨indent, gap, hindent, hgap, hname, rfl⟩, rfl, hne⟩
    obtain ⟨hnonempty, hletters⟩ := isName_iff.1 hname
    have hstart : Stops isBlank (name ++ (gap ++ ':' :: rest)) := (isWord_of_isName hname).stops _
    have hletter : Stops isLetter (gap ++ ':' :: rest) := stops_isLetter hgap _
    have hcolon : Stops isBlank (':' :: rest) := stops_cons.2 rfl
    rw [header?]
    dsimp only
    rw [dropWhile_append hindent hstart, takeWhile_append hletters hletter, dropWhile_append hletters hletter,
      dropWhile_append hgap hcolon]
    simp [hnonempty, hne]

theorem header?_eq_some : header? (trimEnd line) = some (name, body) ↔ Heads line name body := by
  rw [header?_eq_some_iff_opens, heads_iff]
  refine exists_congr fun rest => and_congr_right fun hopens => ?_
  rw [trim_eq_dropWhile (hopens.finish (stops_trimEnd line))]

end Heads

theorem verb?_eq_some {verb : List Char} {kind : RelationKind} :
    verb? (.ofList verb) = some kind ↔ IsVerb verb kind := by
  constructor
  · intro h
    unfold verb? at h
    split at h
    next hverb =>
      obtain rfl := Option.some.inj h
      obtain rfl : verb = "supports".toList := by rw [← hverb, String.toList_ofList]
      exact .supports
    next hverb =>
      obtain rfl := Option.some.inj h
      obtain rfl : verb = "attacks".toList := by rw [← hverb, String.toList_ofList]
      exact .attacks
    next => cases h
  · rintro (_ | _) <;> rfl

/-- The mark of an assumption is taken off if a source follows it. -/
def markOf (lead : List (List Char)) : Bool × List (List Char) :=
  match lead with
  | first :: second :: more => if first = assumeWord then (true, second :: more) else (false, lead)
  | _ => (false, lead)

theorem markOf_eq {lead sources : List (List Char)} {verb target : List Char} {assumption : Bool}
    (hlead : lead ≠ []) :
    markOf lead = (assumption, sources) ↔
    (assumption = true ↔ lead.head? = some assumeWord ∧ 4 ≤ (lead ++ [verb, target]).length) ∧
      sources = if assumption then lead.tail else lead := by
  match lead, hlead with
  | [only], _ => cases assumption <;> simp [markOf, eq_comm]
  | first :: second :: more, _ =>
      by_cases h : first = assumeWord <;> cases assumption <;> simp [markOf, h, eq_comm]

section Relations

variable {body verb target : List Char} {lead : List (List Char)} {assumption : Bool} {said : StatementKind}

theorem relation?_eq (hwords : words body = lead ++ [verb, target]) (hlead : lead ≠ [])
    (hnames : ∀ word ∈ lead ++ [verb, target], isName word) :
    relation? body = (verb? (.ofList verb)).map fun kind =>
      ((markOf lead).1, .relation ((markOf lead).2.map .ofList) kind (.ofList target)) := by
  obtain ⟨source, others, hreverse⟩ := List.exists_cons_of_ne_nil (List.reverse_ne_nil_iff.2 hlead)
  have hlast : (lead ++ [verb, target]).reverse = target :: verb :: source :: others := by simp [hreverse]
  have hlead : lead = (source :: others).reverse := by rw [← hreverse, List.reverse_reverse]
  rw [relation?, hwords]
  dsimp only
  rw [if_pos (List.all_eq_true.2 hnames), hlast, hlead]
  dsimp only
  cases verb? (.ofList verb) <;> rfl

theorem exists_of_relation? (h : relation? body = some (assumption, said)) :
    ∃ lead verb target, words body = lead ++ [verb, target] ∧ lead ≠ [] ∧
      ∀ word ∈ lead ++ [verb, target], isName word := by
  rw [relation?] at h
  dsimp only at h
  split at h
  next hnames =>
    split at h
    next target verb source others hreverse =>
      have hwords : words body = (source :: others).reverse ++ [verb, target] := by
        rw [← List.reverse_reverse (words body), hreverse]
        simp
      exact ⟨_, verb, target, hwords, by simp, by simpa [hwords] using List.all_eq_true.1 hnames⟩
    next => cases h
  next => cases h

theorem relation?_eq_some (hbody : Tight body) (hne : body ≠ []) :
    relation? body = some (assumption, said) ↔
      ∃ sources kind target, SaysRelation body assumption sources kind target ∧
        said = .relation (sources.map .ofList) kind (.ofList target) := by
  constructor
  · intro h
    obtain ⟨lead, verb, target, hwords, hlead, hnames⟩ := exists_of_relation? h
    rw [relation?_eq hwords hlead hnames, Option.map_eq_some_iff] at h
    obtain ⟨kind, hkind, hsaid⟩ := h
    obtain ⟨rfl, rfl⟩ := Prod.mk.inj hsaid
    exact ⟨_, kind, target, ⟨lead, verb, hwords ▸ spaced_words hbody hne, hlead, hnames, verb?_eq_some.1 hkind,
      (markOf_eq hlead).1 rfl⟩, rfl⟩
  · rintro ⟨sources, kind, target, ⟨lead, verb, hspaced, hlead, hnames, hverb, hmark⟩, rfl⟩
    rw [relation?_eq (words_of_spaced hspaced) hlead hnames, verb?_eq_some.2 hverb, (markOf_eq hlead).2 hmark]
    rfl

end Relations

section Claims

variable {body text text' : List Char} {assumption assumption' : Bool}

theorem IsMarked.unique (h : IsMarked body text) (htext : Stops isBlank text) (h' : IsMarked body text')
    (htext' : Stops isBlank text') : text = text' := by
  obtain ⟨gap, hgap, rfl⟩ := h
  obtain ⟨gap', hgap', hbody⟩ := h'
  have hrest := List.append_cancel_left hbody
  rw [← dropWhile_append hgap.blank htext, hrest, dropWhile_append hgap'.blank htext']

theorem SaysClaim.unique (h : SaysClaim body assumption text) (h' : SaysClaim body assumption' text') :
    assumption = assumption' ∧ text = text' := by
  obtain ⟨-, htight, h⟩ := h
  obtain ⟨-, htight', h'⟩ := h'
  cases assumption <;> cases assumption'
  · exact ⟨rfl, h.1.trans h'.1.symm⟩
  · exact absurd h' (h.2 text')
  · exact absurd h (h'.2 text)
  · exact ⟨rfl, IsMarked.unique h htight.start h' htight'.start⟩

/-- Behind the mark, the gap can be taken to end where the text begins. -/
theorem IsMarked.exists_gap (h : IsMarked body text') :
    ∃ gap text, IsGap gap ∧ Stops isBlank text ∧ body = assumeWord ++ (gap ++ text) := by
  obtain ⟨first, hfirst, rfl⟩ := h
  obtain ⟨second, text, rfl, hsecond, htext⟩ := exists_cut isBlank text'
  refine ⟨first ++ second, text, ⟨by simp [hfirst.nonempty], ?_⟩, htext, by simp⟩
  exact List.forall_mem_append.2 ⟨hfirst.blank, hsecond⟩

theorem claim_of_marked {gap : List Char} (hgap : IsGap gap) (htext : Stops isBlank text) :
    claim (assumeWord ++ (gap ++ text)) = (true, .claim (.ofList text)) := by
  obtain ⟨c, others, rfl⟩ := List.exists_cons_of_ne_nil hgap.nonempty
  obtain ⟨hc, hothers⟩ := List.forall_mem_cons.1 hgap.blank
  rw [claim, List.drop_left, List.take_left]
  dsimp only [List.cons_append]
  rw [if_pos (by simp [hc]), dropWhile_append hothers htext]

theorem claim_of_unmarked (h : ∀ rest, ¬IsMarked body rest) : claim body = (false, .claim (.ofList body)) := by
  rw [claim]
  split
  next c rest hdrop =>
    rw [if_neg]
    intro hmark
    rw [Bool.and_eq_true, decide_eq_true_eq] at hmark
    have hcut := List.take_append_drop assumeWord.length body
    rw [hmark.1, hdrop] at hcut
    exact h rest ⟨[c], ⟨by simp, by simpa using hmark.2⟩, hcut.symm⟩
  next => rfl

theorem claim_says (hbody : Tight body) (hne : body ≠ []) :
    ∃ text, SaysClaim body (claim body).1 text ∧ (claim body).2 = .claim (.ofList text) := by
  by_cases hmarked : ∃ rest, IsMarked body rest
  · obtain ⟨rest, hrest⟩ := hmarked
    obtain ⟨gap, text, hgap, htext, rfl⟩ := hrest.exists_gap
    have hfinish : Stops isBlank (gap ++ text).reverse := stops_reverse_of_append hbody.finish
    have hnonempty : text ≠ [] := by
      rintro rfl
      rw [List.append_nil] at hfinish
      exact hgap.nonempty (List.reverse_eq_nil_iff.1 (eq_nil_of_stops (by simpa using hgap.blank) hfinish))
    rw [claim_of_marked hgap htext]
    exact ⟨text, ⟨hnonempty, ⟨htext, stops_reverse_of_append hfinish⟩, gap, hgap, rfl⟩, rfl⟩
  · have hunmarked : ∀ rest, ¬IsMarked body rest := fun rest h => hmarked ⟨rest, h⟩
    rw [claim_of_unmarked hunmarked]
    exact ⟨body, ⟨hne, hbody, rfl, hunmarked⟩, rfl⟩

end Claims

/-- What is read of a line's body is what the grammar says it says. -/
theorem says_iff {body : List Char} (hbody : Tight body) (hne : body ≠ []) {assumption : Bool}
    {said : StatementKind} : (relation? body).getD (claim body) = (assumption, said) ↔ Says body assumption said := by
  cases hrelation : relation? body with
  | some found =>
      obtain ⟨marked, kind⟩ := found
      obtain ⟨sources, verb, target, hsays, rfl⟩ := (relation?_eq_some hbody hne).1 hrelation
      constructor
      · intro h
        obtain ⟨rfl, rfl⟩ := Prod.mk.inj h
        exact .relation hsays
      · rintro (h | ⟨hnone, -⟩)
        · exact Option.some.inj (hrelation.symm.trans ((relation?_eq_some hbody hne).2 ⟨_, _, _, h, rfl⟩))
        · exact (hnone _ _ _ _ hsays).elim
  | none =>
      obtain ⟨text, hclaim, hsaid⟩ := claim_says hbody hne
      constructor
      · intro h
        obtain rfl : (claim body).1 = assumption := congrArg Prod.fst h
        obtain rfl : (claim body).2 = said := congrArg Prod.snd h
        rw [hsaid]
        refine .claim (fun assumption sources kind target h => ?_) hclaim
        cases hrelation.symm.trans ((relation?_eq_some hbody hne).2 ⟨_, _, _, h, rfl⟩)
      · rintro (h | ⟨-, h⟩)
        · cases hrelation.symm.trans ((relation?_eq_some hbody hne).2 ⟨_, _, _, h, rfl⟩)
        · obtain ⟨hmark, rfl⟩ := hclaim.unique h
          exact Prod.ext hmark hsaid

theorem statement?_eq_some {number : Nat} {line : List Char} {s : Statement} :
    statement? number line = some s ↔ s.line = number ∧ Reads line s := by
  rw [statement?]
  constructor
  · intro h
    obtain ⟨⟨name, body⟩, hheader, hsome⟩ := Option.bind_eq_some_iff.1 h
    have hheads := header?_eq_some.1 hheader
    obtain rfl := Option.some.inj hsome
    exact ⟨rfl, name, body, hheads, rfl, (says_iff hheads.tight hheads.nonempty).1 rfl⟩
  · rintro ⟨rfl, name, body, hheads, hname, hsays⟩
    refine Option.bind_eq_some_iff.2 ⟨(name, body), header?_eq_some.2 hheads, ?_⟩
    dsimp only
    rw [(says_iff hheads.tight hheads.nonempty).2 hsays, ← hname]
    rfl

/-- A line says something as soon as it names a variable and does not end there. -/
theorem exists_reads_iff {line : List Char} (number : Nat) :
    (∃ s, s.line = number ∧ Reads line s) ↔ ∃ name body, Heads line name body := by
  constructor
  · rintro ⟨s, -, name, body, hheads, -⟩
    exact ⟨name, body, hheads⟩
  · rintro ⟨name, body, hheads⟩
    exact ⟨⟨number, .ofList name, _, _⟩, rfl, name, body, hheads, rfl,
      (says_iff hheads.tight hheads.nonempty).1 rfl⟩

/-- The mark of an assumption leaves a relation a source. -/
theorem SaysRelation.sources_ne_nil {body target : List Char} {assumption : Bool} {sources : List (List Char)}
    {kind : RelationKind} (h : SaysRelation body assumption sources kind target) : sources ≠ [] := by
  obtain ⟨lead, verb, -, hne, -, -, hmark, rfl⟩ := h
  cases assumption with
  | false => exact hne
  | true =>
      have hlength := (hmark.1 rfl).2
      match lead, hne with
      | [only], _ => simp at hlength
      | first :: second :: more, _ => simp

theorem Reads.sources_ne_nil {line : List Char} {s : Statement} (h : Reads line s) {sources : List String}
    {kind : RelationKind} {target : String} (hkind : s.kind = .relation sources kind target) : sources ≠ [] := by
  obtain ⟨name, body, -, -, hsays⟩ := h
  rw [hkind] at hsays
  cases hsays with
  | relation h => simpa using h.sources_ne_nil

theorem mem_ofText {text : String} {s : Statement} : s ∈ ofText text ↔
    ∃ i line, (pieces '\n' text.toList)[i]? = some line ∧ s.line = i + 1 ∧ Reads line s := by
  rw [ofText, List.mem_filterMap]
  constructor
  · rintro ⟨⟨line, number⟩, hmem, hs⟩
    obtain ⟨hnumber, hline⟩ := List.mk_mem_zipIdx_iff_le_and_getElem?_sub.1 hmem
    obtain ⟨rfl, hreads⟩ := statement?_eq_some.1 hs
    exact ⟨s.line - 1, line, hline, by omega, hreads⟩
  · rintro ⟨i, line, hline, hnumber, hreads⟩
    refine ⟨(line, s.line), List.mk_mem_zipIdx_iff_le_and_getElem?_sub.2 ⟨by omega, ?_⟩,
      statement?_eq_some.2 ⟨rfl, hreads⟩⟩
    rw [hnumber, Nat.add_sub_cancel]
    exact hline

/-- No line has two statements, and those of earlier lines come first. -/
theorem pairwise_ofText (text : String) : (ofText text).Pairwise (·.line < ·.line) := by
  have hnumbers : ((pieces '\n' text.toList).zipIdx 1).Pairwise (·.2 < ·.2) := by
    rw [← List.pairwise_map, List.zipIdx_map_snd]
    exact List.pairwise_lt_range'
  rw [ofText, List.pairwise_filterMap]
  refine hnumbers.imp fun {first second} hlt s hs s' hs' => ?_
  rw [(statement?_eq_some.1 hs).1, (statement?_eq_some.1 hs').1]
  exact hlt

end ArgumentDiagram.Script
