import ArgumentDiagram.Proofs.Text.Words

/-!
Patterns with groups, matched as a backtracking matcher does: alternatives from left to right, repetitions from
the longest to the shortest or the other way round, and the first way that leads to the end counts. A repetition
of a class that what comes next cannot begin with takes all it can.
-/

namespace ArgumentDiagram.Text

/-- What the groups of a pattern have taken, the latest first. -/
abbrev Captures := List (Nat × List Char)

/-- What is to be matched next, from the text that is left and the groups so far. -/
abbrev Continuation := List Char → Captures → Option Captures

inductive Pattern where
  | empty
  | char (accepts : Char → Bool)
  | atEnd
  | seq (first second : Pattern)
  /-- The first is tried before the second. -/
  | either (first second : Pattern)
  /-- As often as possible. -/
  | many (pattern : Pattern)
  /-- As rarely as possible. -/
  | few (pattern : Pattern)
  | group (number : Nat) (pattern : Pattern)

namespace Pattern

/-- Matches once more before going on. A round that takes nothing is not counted. -/
def manyTimes (round : List Char → Captures → Continuation → Option Captures) (text : List Char) (caught : Captures)
    (next : Continuation) : Option Captures :=
  (round text caught fun rest caught =>
    if rest.length < text.length then manyTimes round rest caught next else none).or (next text caught)
termination_by text.length

/-- Goes on before matching once more. -/
def fewTimes (round : List Char → Captures → Continuation → Option Captures) (text : List Char) (caught : Captures)
    (next : Continuation) : Option Captures :=
  (next text caught).or (round text caught fun rest caught =>
    if rest.length < text.length then fewTimes round rest caught next else none)
termination_by text.length

/-- The first way to match a beginning of the text such that the rest can be matched. -/
def run : Pattern → List Char → Captures → Continuation → Option Captures
  | .empty, text, caught, next => next text caught
  | .char accepts, c :: rest, caught, next => if accepts c then next rest caught else none
  | .char _, [], _, _ => none
  | .atEnd, text, caught, next => if text.isEmpty then next text caught else none
  | .seq first second, text, caught, next => first.run text caught fun rest caught => second.run rest caught next
  | .either first second, text, caught, next => (first.run text caught next).or (second.run text caught next)
  | .many pattern, text, caught, next => manyTimes pattern.run text caught next
  | .few pattern, text, caught, next => fewTimes pattern.run text caught next
  | .group number pattern, text, caught, next => pattern.run text caught fun rest caught =>
      next rest ((number, text.take (text.length - rest.length)) :: caught)

/-- The groups of the first way to match a text from its start. -/
def find? (pattern : Pattern) (text : List Char) : Option Captures := pattern.run text [] fun _ caught => some caught

/-- At least once. -/
def plus (pattern : Pattern) : Pattern := .seq pattern (.many pattern)

/-- At least once, as rarely as possible. -/
def plusFew (pattern : Pattern) : Pattern := .seq pattern (.few pattern)

/-- Once, if possible. -/
def optional (pattern : Pattern) : Pattern := .either pattern .empty

def literal (word : List Char) : Pattern := word.foldr (fun c => .seq (.char (· == c))) .empty

def inOrder (patterns : List Pattern) : Pattern := patterns.foldr .seq .empty

variable {pattern : Pattern} {next : Continuation} {p : Char → Bool} {text : List Char} {caught found : Captures}

theorem run_seq (first second : Pattern) : (seq first second).run text caught next =
    first.run text caught fun rest caught => second.run rest caught next := rfl

theorem run_either (first second : Pattern) : (either first second).run text caught next =
    (first.run text caught next).or (second.run text caught next) := rfl

theorem run_char_cons (c : Char) (rest : List Char) : (char p).run (c :: rest) caught next =
    if p c then next rest caught else none := rfl

theorem run_group (number : Nat) : (group number pattern).run text caught next = pattern.run text caught
    fun rest caught => next rest ((number, text.take (text.length - rest.length)) :: caught) := rfl

theorem run_many : (many pattern).run text caught next = (pattern.run text caught fun rest caught =>
    if rest.length < text.length then (many pattern).run rest caught next else none).or (next text caught) :=
  manyTimes.eq_1 ..

theorem run_few : (few pattern).run text caught next = (next text caught).or
    (pattern.run text caught fun rest caught =>
      if rest.length < text.length then (few pattern).run rest caught next else none) :=
  fewTimes.eq_1 ..

theorem run_inOrder_cons (first : Pattern) (others : List Pattern) :
    (inOrder (first :: others)).run text caught next =
      first.run text caught fun rest caught => (inOrder others).run rest caught next := rfl

/-! ### What a pattern takes -/

/-- What comes next does not begin with a character of a class. -/
def Rejects (next : Continuation) (p : Char → Bool) : Prop :=
  ∀ c rest caught, p c = true → next (c :: rest) caught = none

theorem rejects_nothing (next : Continuation) : Rejects next fun _ => false := fun _ _ _ h => by cases h

/-- A pattern does not begin with a character of a class, whatever comes next. -/
def Avoids (pattern : Pattern) (p : Char → Bool) : Prop :=
  ∀ c rest caught next, p c = true → pattern.run (c :: rest) caught next = none

/-- If what comes next cannot begin with a class, a pattern takes a text of a certain kind. -/
def Takes (pattern : Pattern) (kind : List Char → Prop) (p : Char → Bool) : Prop :=
  ∀ next, Rejects next p → ∀ text caught found, pattern.run text caught next = some found ↔
    ∃ first rest, text = first ++ rest ∧ kind first ∧ next rest caught = some found

namespace Avoids

variable {first second : Pattern}

theorem rejects (h : pattern.Avoids p) (next : Continuation) :
    Rejects (fun rest caught => pattern.run rest caught next) p :=
  fun c rest caught hc => h c rest caught next hc

theorem char {accepts : Char → Bool} (h : ∀ c, p c = true → accepts c = false) : (char accepts).Avoids p :=
  fun c _ _ _ hc => if_neg (by simp [h c hc])

theorem seq (h : first.Avoids p) (second : Pattern) : (seq first second).Avoids p :=
  fun c rest caught _ hc => h c rest caught _ hc

theorem group (h : pattern.Avoids p) (number : Nat) : (group number pattern).Avoids p :=
  fun c rest caught _ hc => h c rest caught _ hc

theorem either (h : first.Avoids p) (h' : second.Avoids p) : (either first second).Avoids p := by
  intro c rest caught next hc
  rw [run_either, h c rest caught next hc, h' c rest caught next hc]
  rfl

theorem literal {c : Char} (h : p c = false) (word : List Char) : (literal (c :: word)).Avoids p := by
  refine seq (char fun d hd => ?_) _
  rw [beq_eq_false_iff_ne]
  rintro rfl
  cases hd.symm.trans h

end Avoids

/-- The longest stretch of a class decides, if no shorter one can be gone on from in its stead. -/
theorem run_many_char (hnext : next (text.dropWhile p) caught = none →
      ∀ c rest, p c = true → c :: rest <:+ text → next (c :: rest) caught = none) :
    (many (char p)).run text caught next = next (text.dropWhile p) caught := by
  induction text with
  | nil =>
      rw [run_many]
      rfl
  | cons c rest ih =>
      rw [run_many, run_char_cons]
      cases hc : p c with
      | false => simp [hc]
      | true =>
          rw [List.dropWhile_cons_of_pos hc] at hnext ⊢
          rw [if_pos rfl, if_pos (by simp)]
          rw [ih fun hnone d others hd hsuffix => hnext hnone d others hd (hsuffix.trans (List.suffix_cons c rest))]
          cases hdrop : next (rest.dropWhile p) caught with
          | some found => rfl
          | none => exact hnext hdrop c rest hc (List.suffix_refl _)

theorem takes_many_char (p : Char → Bool) : (many (char p)).Takes (fun first => ∀ c ∈ first, p c = true) p := by
  intro next hnext text caught found
  rw [run_many_char fun _ c rest hc _ => hnext c rest caught hc]
  constructor
  · intro h
    exact ⟨_, _, List.takeWhile_append_dropWhile.symm, List.all_eq_true.1 List.all_takeWhile, h⟩
  · rintro ⟨first, rest, rfl, hfirst, h⟩
    have hrest : Stops p rest := by
      cases rest with
      | nil => exact stops_nil p
      | cons c others =>
          cases hc : p c with
          | false => exact stops_cons.2 hc
          | true => cases (hnext c others caught hc).symm.trans h
    rw [dropWhile_append hfirst hrest]
    exact h

theorem takes_plus_char (p : Char → Bool) :
    (plus (char p)).Takes (fun first => first ≠ [] ∧ ∀ c ∈ first, p c = true) p := by
  intro next hnext text caught found
  cases text with
  | nil => simp [plus, run]
  | cons c rest =>
      rw [plus, run_seq, run_char_cons]
      constructor
      · intro h
        split at h
        next hc =>
          obtain ⟨first, others, rfl, hfirst, hothers⟩ := (takes_many_char p _ hnext ..).1 h
          exact ⟨c :: first, others, rfl, ⟨by simp, by simpa [hc] using hfirst⟩, hothers⟩
        next => cases h
      · rintro ⟨first, others, htext, ⟨hne, hfirst⟩, hothers⟩
        obtain ⟨d, more, rfl⟩ := List.exists_cons_of_ne_nil hne
        obtain ⟨rfl, rfl⟩ := List.cons.inj htext
        rw [if_pos (hfirst c (by simp))]
        exact (takes_many_char p _ hnext ..).2 ⟨more, others, rfl, fun d hd => hfirst d (by simp [hd]), hothers⟩

/-- A literal takes itself, whatever comes next. -/
theorem run_literal (word : List Char) : (literal word).run text caught next = some found ↔
    ∃ rest, text = word ++ rest ∧ next rest caught = some found := by
  induction word generalizing text with
  | nil => simp [literal, run]
  | cons c word ih =>
      have hstep : literal (c :: word) = seq (char (· == c)) (literal word) := rfl
      rw [hstep, run_seq]
      cases text with
      | nil => simp [run]
      | cons d rest =>
          rw [run_char_cons]
          by_cases hd : d = c
          · subst hd
            simp [ih]
          · simp [hd]

theorem takes_literal (word : List Char) (p : Char → Bool) : (literal word).Takes (· = word) p := by
  intro next _ text caught found
  rw [run_literal]
  constructor
  · rintro ⟨rest, rfl, h⟩
    exact ⟨word, rest, rfl, rfl, h⟩
  · rintro ⟨_, rest, rfl, rfl, h⟩
    exact ⟨rest, rfl, h⟩

theorem Takes.seq {first second : Pattern} {kind kind' : List Char → Prop} {p' : Char → Bool}
    (hfirst : first.Takes kind p) (hsecond : second.Takes kind' p') (havoids : second.Avoids p) :
    (seq first second).Takes (fun text => ∃ a b, text = a ++ b ∧ kind a ∧ kind' b) p' := by
  intro next hnext text caught found
  rw [run_seq, hfirst _ (havoids.rejects next)]
  constructor
  · rintro ⟨a, tail, rfl, ha, h⟩
    obtain ⟨b, rest, rfl, hb, h⟩ := (hsecond _ hnext ..).1 h
    exact ⟨a ++ b, rest, by simp, ⟨a, b, rfl, ha, hb⟩, h⟩
  · rintro ⟨_, rest, rfl, ⟨a, b, rfl, ha, hb⟩, h⟩
    exact ⟨a, b ++ rest, by simp, ha, (hsecond _ hnext ..).2 ⟨b, rest, rfl, hb, h⟩⟩

/-- A group notes what its pattern has taken. -/
theorem run_group_iff {kind : List Char → Prop} (number : Nat)
    (hpattern : ∀ note : List Char → List Char, pattern.run text caught (fun rest caught =>
      next rest ((number, note rest) :: caught)) = some found ↔ ∃ first rest, text = first ++ rest ∧ kind first ∧
        next rest ((number, note rest) :: caught) = some found) :
    (group number pattern).run text caught next = some found ↔
      ∃ first rest, text = first ++ rest ∧ kind first ∧ next rest ((number, first) :: caught) = some found := by
  rw [run_group, hpattern fun rest => text.take (text.length - rest.length)]
  refine exists_congr fun first => exists_congr fun rest => and_congr_right ?_
  rintro rfl
  simp

theorem Takes.run_group {kind : List Char → Prop} (hpattern : pattern.Takes kind p) (hnext : Rejects next p)
    (number : Nat) : (group number pattern).run text caught next = some found ↔
      ∃ first rest, text = first ++ rest ∧ kind first ∧ next rest ((number, first) :: caught) = some found := by
  refine run_group_iff number fun note => ?_
  have hnote : Rejects (fun rest caught => next rest ((number, note rest) :: caught)) p :=
    fun c rest _ hc => hnext c rest _ hc
  exact hpattern _ hnote ..

/-- Any number of texts of a kind, one after the other. -/
inductive Repeated (kind : List Char → Prop) : List Char → Prop where
  | nil : Repeated kind []
  | cons {first rest : List Char} (hfirst : kind first) (hrest : Repeated kind rest) : Repeated kind (first ++ rest)

theorem rejects_many (havoids : pattern.Avoids p) (hnext : Rejects next p) :
    Rejects (fun rest caught => (many pattern).run rest caught next) p := by
  intro c rest caught hc
  dsimp only
  rw [run_many, hnext c rest caught hc, Option.or_none]
  exact havoids c rest caught _ hc

/-- One more round and then any number of them, if that is what the repetition does on shorter texts. -/
theorem run_round_iff {kind : List Char → Prop} (hpattern : pattern.Takes kind p) (havoids : pattern.Avoids p)
    (hkind : ∀ first, kind first → first ≠ []) (hnext : Rejects next p)
    (hmany : ∀ rest, rest.length < text.length → ((many pattern).run rest caught next = some found ↔
      ∃ lead last, rest = lead ++ last ∧ Repeated kind lead ∧ next last caught = some found)) :
    (pattern.run text caught fun rest caught =>
      if rest.length < text.length then (many pattern).run rest caught next else none) = some found ↔
      ∃ first more last, text = first ++ (more ++ last) ∧ kind first ∧ Repeated kind more ∧
        next last caught = some found := by
  have hagain : Rejects (fun rest caught =>
      if rest.length < text.length then (many pattern).run rest caught next else none) p := by
    intro c rest caught hc
    dsimp only
    split
    · exact rejects_many havoids hnext c rest caught hc
    · rfl
  rw [hpattern _ hagain]
  constructor
  · rintro ⟨first, rest, rfl, hfirst, h⟩
    split at h
    next hlt =>
      obtain ⟨more, last, rfl, hmore, hlast⟩ := (hmany rest hlt).1 h
      exact ⟨first, more, last, rfl, hfirst, hmore, hlast⟩
    next => cases h
  · rintro ⟨first, more, last, rfl, hfirst, hmore, hlast⟩
    have hpos := List.length_pos_iff.2 (hkind first hfirst)
    have hlt : (more ++ last).length < (first ++ (more ++ last)).length := by
      simp only [List.length_append]
      omega
    exact ⟨first, more ++ last, rfl, hfirst, (if_pos hlt).trans ((hmany _ hlt).2 ⟨more, last, rfl, hmore, hlast⟩)⟩

/-- A repetition takes what leads to the end, if there is but one way to get there. -/
theorem run_many_iff {kind : List Char → Prop} (hpattern : pattern.Takes kind p)
    (havoids : pattern.Avoids p)
    (hkind : ∀ first, kind first → first ≠ []) (hnext : Rejects next p)
    (hone : ∀ first more rest caught, kind first → Repeated kind more → (next rest caught).isSome →
      next (first ++ (more ++ rest)) caught = none) :
    (many pattern).run text caught next = some found ↔
      ∃ lead rest, text = lead ++ rest ∧ Repeated kind lead ∧ next rest caught = some found := by
  induction hn : text.length using Nat.strongRecOn generalizing text found with
  | ind n ih =>
      have hround := fun found => @run_round_iff pattern next p text caught found kind hpattern havoids hkind hnext
        fun rest hlt => ih rest.length (hn ▸ hlt) rfl
      rw [run_many, Option.or_eq_some_iff, hround]
      constructor
      · rintro (⟨first, more, rest, rfl, hfirst, hmore, hrest⟩ | ⟨-, h⟩)
        · exact ⟨first ++ more, rest, by simp, .cons hfirst hmore, hrest⟩
        · exact ⟨[], text, rfl, .nil, h⟩
      · rintro ⟨lead, rest, htext, hlead, hrest⟩
        cases hlead with
        | nil =>
            -- Another round would lead to another way to get there.
            refine .inr ⟨Option.eq_none_iff_forall_ne_some.2 fun other hother => ?_, htext ▸ hrest⟩
            obtain ⟨first, more, last, hcut, hfirst, hmore, hlast⟩ := (hround other).1 hother
            have hnone := hone first more last caught hfirst hmore (by simp [hlast])
            rw [← hcut, htext, List.nil_append, hrest] at hnone
            cases hnone
        | @cons first more hfirst hmore =>
            exact .inl ⟨first, more, rest, by rw [htext, List.append_assoc], hfirst, hmore, hrest⟩

theorem run_plus_iff {kind : List Char → Prop} (hpattern : pattern.Takes kind p) (havoids : pattern.Avoids p)
    (hkind : ∀ first, kind first → first ≠ []) (hnext : Rejects next p)
    (hone : ∀ first more rest caught, kind first → Repeated kind more → (next rest caught).isSome →
      next (first ++ (more ++ rest)) caught = none) :
    (plus pattern).run text caught next = some found ↔
      ∃ lead rest, text = lead ++ rest ∧ (∃ first more, lead = first ++ more ∧ kind first ∧ Repeated kind more) ∧
        next rest caught = some found := by
  rw [plus, run_seq, hpattern _ (rejects_many havoids hnext)]
  constructor
  · rintro ⟨first, tail, rfl, hfirst, h⟩
    obtain ⟨more, rest, rfl, hmore, h⟩ := (run_many_iff hpattern havoids hkind hnext hone).1 h
    exact ⟨first ++ more, rest, by simp, ⟨first, more, rfl, hfirst, hmore⟩, h⟩
  · rintro ⟨_, rest, rfl, ⟨first, more, rfl, hfirst, hmore⟩, h⟩
    exact ⟨first, more ++ rest, by simp, hfirst,
      (run_many_iff hpattern havoids hkind hnext hone).2 ⟨more, rest, rfl, hmore, h⟩⟩

end Pattern

end ArgumentDiagram.Text
