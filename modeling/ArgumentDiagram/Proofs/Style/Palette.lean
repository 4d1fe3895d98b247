import ArgumentDiagram.Style.Palette

/-!
A palette keeps to its answers: a scope that was asked for once gets the same answer from then on, and asking
for it again changes nothing.
-/

namespace ArgumentDiagram.ScopePalette

variable {p : ScopePalette} {scope : String} {answer : Option String}

/-- Whether a palette has made up its mind about a scope. -/
def Answers (p : ScopePalette) (scope : String) (answer : Option String) : Prop :=
  p.colorFor scope = (answer, p)

theorem answers_some_iff {color : String} : p.Answers scope (some color) ↔ p.assigned scope = some color := by
  unfold Answers colorFor
  cases hassigned : p.assigned scope with
  | some known => simp
  | none =>
      cases hlast : p.remaining.getLast? with
      | none => simp
      | some color' =>
          -- a colour that is given out is no longer among the remaining ones
          have hne : (⟨p.chosen ++ [(scope, color')], p.remaining.dropLast⟩ : ScopePalette) ≠ p := by
            intro heq
            have hlength := congrArg (fun q : ScopePalette => q.chosen.length) heq
            simp at hlength
          simp [hne]

theorem answers_none_iff : p.Answers scope none ↔ p.assigned scope = none ∧ p.remaining = [] := by
  unfold Answers colorFor
  rw [← List.getLast?_eq_none_iff]
  cases p.assigned scope with
  | some known => simp
  | none => cases p.remaining.getLast? <;> simp

theorem assigned_append (p : ScopePalette) (other color : String) (rest : List String) (scope : String) :
    (⟨p.chosen ++ [(other, color)], rest⟩ : ScopePalette).assigned scope =
      (p.assigned scope).or (if scope = other then some color else none) := by
  unfold assigned
  rw [List.lookup_append, List.lookup_cons, List.lookup_nil]
  by_cases h : scope = other
  · simp [h]
  · rw [beq_false_of_ne h, if_neg h]

theorem answers_colorFor (p : ScopePalette) (scope : String) :
    (p.colorFor scope).2.Answers scope (p.colorFor scope).1 := by
  unfold colorFor
  cases hassigned : p.assigned scope with
  | some known => exact answers_some_iff.2 hassigned
  | none =>
      cases hlast : p.remaining.getLast? with
      | none => exact answers_none_iff.2 ⟨hassigned, List.getLast?_eq_none_iff.1 hlast⟩
      | some color =>
          refine answers_some_iff.2 ?_
          rw [assigned_append, hassigned]
          simp

/-- Asking for another scope changes no answer. -/
theorem Answers.colorFor (h : p.Answers scope answer) (other : String) :
    (p.colorFor other).2.Answers scope answer := by
  unfold ScopePalette.colorFor
  cases p.assigned other with
  | some known => exact h
  | none =>
      cases hlast : p.remaining.getLast? with
      | none => exact h
      | some color =>
          cases answer with
          | some known =>
              refine answers_some_iff.2 ?_
              rw [assigned_append, answers_some_iff.1 h, Option.some_or]
          | none =>
              -- there is no last colour if none is left
              rw [(answers_none_iff.1 h).2] at hlast
              cases hlast

end ArgumentDiagram.ScopePalette
