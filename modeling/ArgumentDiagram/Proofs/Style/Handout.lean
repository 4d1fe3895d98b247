import ArgumentDiagram.Proofs.Style.Palette
import Mathlib.Data.List.Induction
import Mathlib.Data.List.Nodup

/-!
How a palette hands out its colours. Whatever scopes it is asked for, and however often, it stands at the colours
that the different scopes took in the order they first came up, from the end of the list.
-/

namespace ArgumentDiagram.ScopePalette

theorem zip_concat (scopes colors : List String) (scope : String) : (scopes ++ [scope]).zip colors =
    scopes.zip colors ++ [scope].zip (colors.drop scopes.length) := by
  induction scopes generalizing colors with
  | nil => rfl
  | cons first rest ih =>
      cases colors with
      | nil => rfl
      | cons color colors => simp [ih]

theorem lookup_zip {scopes : List String} {scope : String} (h : scope ∈ scopes) (colors : List String) :
    (scopes.zip colors).lookup scope = colors[scopes.idxOf scope]? := by
  induction scopes generalizing colors with
  | nil => cases h
  | cons first rest ih =>
      cases colors with
      | nil => simp
      | cons color colors =>
          rw [List.zip_cons_cons, List.lookup_cons]
          by_cases hfirst : scope = first
          · simp [hfirst]
          · rw [beq_false_of_ne hfirst, List.idxOf_cons_ne _ (Ne.symm hfirst), List.getElem?_cons_succ]
            exact ih ((List.mem_cons.1 h).resolve_left hfirst) colors

/-- Looking up all of some different scopes gives back what was put beside them. -/
theorem filterMap_lookup_zip {scopes : List String} (h : scopes.Nodup) (colors : List String) :
    scopes.filterMap (fun scope => (scopes.zip colors).lookup scope) = colors.take scopes.length := by
  induction scopes generalizing colors with
  | nil => rfl
  | cons first rest ih =>
      obtain ⟨hfirst, hrest⟩ := List.nodup_cons.1 h
      cases colors with
      | nil => simp
      | cons color colors =>
          have hlater : ∀ scope ∈ rest, ((first :: rest).zip (color :: colors)).lookup scope =
              (rest.zip colors).lookup scope := by
            intro scope hscope
            have hne : scope ≠ first := fun heq => hfirst (heq ▸ hscope)
            rw [List.zip_cons_cons, List.lookup_cons, beq_false_of_ne hne]
          have hlookup : ((first :: rest).zip (color :: colors)).lookup first = some color := by simp
          simp only [List.filterMap_cons, hlookup, List.filterMap_congr hlater, ih hrest]
          rfl

theorem eraseDups_concat (scopes : List String) (scope : String) : (scopes ++ [scope]).eraseDups =
    if scope ∈ scopes then scopes.eraseDups else scopes.eraseDups ++ [scope] := by
  have hsingle : [scope].eraseDups = [scope] := by simp [List.eraseDups_cons]
  rw [List.eraseDups_append]
  by_cases h : scope ∈ scopes
  · simp [List.removeAll, h]
  · simp [List.removeAll, h, hsingle]

theorem nodup_eraseDups (scopes : List String) : scopes.eraseDups.Nodup := by
  induction scopes using List.reverseRecOn with
  | nil => exact .nil
  | append_singleton scopes scope ih =>
      rw [eraseDups_concat]
      split
      next => exact ih
      next hnew =>
        refine List.nodup_append.2 ⟨ih, List.nodup_singleton scope, ?_⟩
        rintro other hother _ hscope rfl
        exact hnew (List.mem_singleton.1 hscope ▸ List.mem_eraseDups.1 hother)

/-- The palette in which scopes have taken their colours one after the other. -/
def handedTo (colors scopes : List String) : ScopePalette :=
  ⟨scopes.zip colors.reverse, (colors.reverse.drop scopes.length).reverse⟩

variable (colors : List String) {scopes : List String} {scope : String}

theorem assigned_handedTo_of_mem (h : scope ∈ scopes) :
    (handedTo colors scopes).assigned scope = colors.reverse[scopes.idxOf scope]? := lookup_zip h _

theorem assigned_handedTo_of_notMem (h : scope ∉ scopes) : (handedTo colors scopes).assigned scope = none := by
  refine List.lookup_eq_none_iff.2 fun pair hpair => ?_
  have hmem : pair.1 ∈ scopes := (List.of_mem_zip hpair).1
  have hne : scope ≠ pair.1 := fun heq => h (heq ▸ hmem)
  simpa using hne

theorem getLast?_remaining_handedTo (scopes : List String) :
    (handedTo colors scopes).remaining.getLast? = colors.reverse[scopes.length]? := by
  rw [handedTo, List.getLast?_reverse, List.head?_drop]

/-- The next scope takes the next colour, if there is one. -/
theorem handedTo_concat (scopes : List String) (scope : String) : handedTo colors (scopes ++ [scope]) =
    match (handedTo colors scopes).remaining.getLast? with
    | none => handedTo colors scopes
    | some color => ⟨(handedTo colors scopes).chosen ++ [(scope, color)],
        (handedTo colors scopes).remaining.dropLast⟩ := by
  have hdrop : colors.reverse.drop (scopes ++ [scope]).length = (colors.reverse.drop scopes.length).tail := by
    rw [List.length_append, List.length_singleton, ← List.drop_drop, List.drop_one]
  unfold handedTo
  rw [zip_concat, hdrop]
  cases hrest : colors.reverse.drop scopes.length with
  | nil => simp
  | cons color rest => simp

/-- A scope is told the colour at its place among the scopes, and a new one comes after all others. -/
theorem colorFor_handedTo (scopes : List String) (scope : String) : (handedTo colors scopes).colorFor scope =
    (colors.reverse[scopes.idxOf scope]?,
      handedTo colors (if scope ∈ scopes then scopes else scopes ++ [scope])) := by
  unfold colorFor
  by_cases h : scope ∈ scopes
  · rw [if_pos h, assigned_handedTo_of_mem colors h]
    cases hcolor : colors.reverse[scopes.idxOf scope]? with
    | some color => rfl
    | none =>
        -- the colours ended before this scope, so there is none left for the next one either
        have hlast : colors.reverse[scopes.length]? = none := by
          rw [List.getElem?_eq_none_iff] at hcolor ⊢
          exact Nat.le_trans hcolor List.idxOf_le_length
        rw [getLast?_remaining_handedTo, hlast]
  · rw [if_neg h, assigned_handedTo_of_notMem colors h, handedTo_concat, List.idxOf_eq_length h,
      getLast?_remaining_handedTo]
    cases colors.reverse[scopes.length]? <;> rfl

theorem isSome_assigned_handedTo_iff (scopes : List String) (scope : String) :
    ((handedTo colors scopes).assigned scope).isSome ↔ scope ∈ scopes.take colors.length := by
  by_cases h : scope ∈ scopes
  · rw [assigned_handedTo_of_mem colors h, List.mem_take_iff_idxOf_lt h, isSome_getElem?, List.length_reverse]
  · rw [assigned_handedTo_of_notMem colors h]
    simpa using fun hmem => h (List.mem_of_mem_take hmem)

/-- Each colour is taken or left. -/
theorem handedTo_perm (h : scopes.Nodup) : (scopes.filterMap (handedTo colors scopes).assigned ++
    (handedTo colors scopes).remaining).Perm colors := by
  have htaken : scopes.filterMap (handedTo colors scopes).assigned = colors.reverse.take scopes.length :=
    filterMap_lookup_zip h _
  have hleft : (handedTo colors scopes).remaining.Perm (colors.reverse.drop scopes.length) := List.reverse_perm _
  rw [htaken]
  calc
    (colors.reverse.take scopes.length ++ (handedTo colors scopes).remaining).Perm
        (colors.reverse.take scopes.length ++ colors.reverse.drop scopes.length) := hleft.append_left _
    List.Perm _ colors.reverse := by rw [List.take_append_drop]
    List.Perm _ colors := List.reverse_perm _

/-- Different colours go to different scopes. -/
theorem eq_of_assigned_handedTo (h : colors.Nodup) {other color : String}
    (hscope : (handedTo colors scopes).assigned scope = some color)
    (hother : (handedTo colors scopes).assigned other = some color) : scope = other := by
  have hmem : ∀ s, (handedTo colors scopes).assigned s = some color → s ∈ scopes := by
    intro s hs
    by_contra hnot
    rw [assigned_handedTo_of_notMem colors hnot] at hs
    cases hs
  have hscopeMem := hmem scope hscope
  have hotherMem := hmem other hother
  rw [assigned_handedTo_of_mem colors hscopeMem] at hscope
  rw [assigned_handedTo_of_mem colors hotherMem] at hother
  have hlength : scopes.idxOf scope < colors.reverse.length := (List.getElem?_eq_some_iff.1 hscope).1
  have hsame : scopes.idxOf scope = scopes.idxOf other :=
    (List.getElem?_inj hlength (List.nodup_reverse.2 h)).1 (hscope.trans hother.symm)
  exact (List.idxOf_inj hscopeMem).1 hsame

/-! ### Many questions -/

/-- The palette after some scopes were asked for, one after the other. -/
def afterAsking (p : ScopePalette) (asked : List String) : ScopePalette :=
  asked.foldl (fun p scope => (p.colorFor scope).2) p

theorem afterAsking_append (p : ScopePalette) (asked later : List String) :
    p.afterAsking (asked ++ later) = (p.afterAsking asked).afterAsking later := List.foldl_append

theorem afterAsking_ofColors (asked : List String) :
    (ofColors colors).afterAsking asked = handedTo colors asked.eraseDups := by
  induction asked using List.reverseRecOn with
  | nil => simp [afterAsking, ofColors, handedTo]
  | append_singleton asked scope ih =>
      rw [afterAsking_append, ih, eraseDups_concat]
      change ((handedTo colors asked.eraseDups).colorFor scope).2 = _
      simp only [colorFor_handedTo, List.mem_eraseDups]

/-- Where a scope stands among the scopes asked for does not depend on what comes after it. -/
theorem idxOf_eraseDups_append (before later : List String) (scope : String) :
    (before ++ scope :: later).eraseDups.idxOf scope = before.eraseDups.idxOf scope := by
  have hmem : scope ∈ (before ++ [scope]).eraseDups := List.mem_eraseDups.2 (by simp)
  rw [List.append_cons, List.eraseDups_append, List.idxOf_append_of_mem hmem, eraseDups_concat]
  split
  next => rfl
  next hnew =>
    have hnew' : scope ∉ before.eraseDups := fun h => hnew (List.mem_eraseDups.1 h)
    rw [List.idxOf_append_of_notMem hnew', List.idxOf_eq_length hnew']
    simp

/-- The scopes asked for take their colours from the end of the list in the order of their first questions, and
each question about a scope is answered like the first. A scope has a colour exactly if there were still colours
when it first came up, no colour is lost, and none is given out twice if none is in the list twice. -/
theorem colors_by_first_question (colors asked : List String) :
    (∀ (k : Nat) (scope : String), asked.eraseDups[k]? = some scope →
      ((ofColors colors).afterAsking asked).assigned scope = colors.reverse[k]? ∧
      ∀ before later, asked = before ++ scope :: later →
        (((ofColors colors).afterAsking before).colorFor scope).1 = colors.reverse[k]?) ∧
    (∀ scope, (((ofColors colors).afterAsking asked).assigned scope).isSome ↔
      scope ∈ asked.eraseDups.take colors.length) ∧
    (asked.eraseDups.filterMap ((ofColors colors).afterAsking asked).assigned ++
      ((ofColors colors).afterAsking asked).remaining).Perm colors ∧
    (colors.Nodup → ∀ scope other color, ((ofColors colors).afterAsking asked).assigned scope = some color →
      ((ofColors colors).afterAsking asked).assigned other = some color → scope = other) := by
  have hnodup := nodup_eraseDups asked
  have hplace : ∀ {k : Nat} {scope : String}, asked.eraseDups[k]? = some scope → asked.eraseDups.idxOf scope = k := by
    intro k scope hk
    obtain ⟨hlt, rfl⟩ := List.getElem?_eq_some_iff.1 hk
    exact hnodup.idxOf_getElem k hlt
  simp only [afterAsking_ofColors]
  refine ⟨fun k scope hk => ⟨?_, ?_⟩, isSome_assigned_handedTo_iff colors _, handedTo_perm colors hnodup,
    fun hcolors scope other color => eq_of_assigned_handedTo colors hcolors⟩
  · rw [assigned_handedTo_of_mem colors (List.mem_of_getElem? hk), hplace hk]
  · rintro before later rfl
    rw [colorFor_handedTo, ← idxOf_eraseDups_append before later, hplace hk]

/-- Two colours for three scopes, the first of which is asked for again when there are none left. -/
theorem colors_by_first_question_of_three :
    let asked := ["a", "b", "c", "a"]
    let p := (ofColors ["#111", "#222"]).afterAsking asked
    asked.eraseDups = ["a", "b", "c"] ∧ ["#111", "#222"].Nodup ∧ p.assigned "a" = some "#222" ∧
      p.assigned "b" = some "#111" ∧ p.assigned "c" = none ∧
      (((ofColors ["#111", "#222"]).afterAsking ["a", "b", "c"]).colorFor "a").1 = some "#222" := by
  intro asked p
  have hfirsts : asked.eraseDups = ["a", "b", "c"] := by decide
  have hcolors : ["#111", "#222"].Nodup := by decide
  obtain ⟨hanswers, -⟩ := colors_by_first_question ["#111", "#222"] asked
  have ha := hanswers 0 "a" (by rw [hfirsts]; rfl)
  have hb := hanswers 1 "b" (by rw [hfirsts]; rfl)
  have hc := hanswers 2 "c" (by rw [hfirsts]; rfl)
  exact ⟨hfirsts, hcolors, ha.1, hb.1, hc.1, ha.2 ["a", "b", "c"] [] rfl⟩

end ArgumentDiagram.ScopePalette
