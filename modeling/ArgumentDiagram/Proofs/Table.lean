import ArgumentDiagram.Table.Lemmas
import Mathlib.Data.List.Perm.Basic

/-!
Tables are determined by their answers, and what is left of one answers as before. A table that is made of a list
answers with the last value that the list has for a key.
-/

namespace ArgumentDiagram.Table

variable {κ ν : Type} [DecidableEq κ] [KeyOrder κ]

theorem get?_of_erase {t : Table κ ν} {key other : κ} {value : ν}
    (h : (t.erase key).get? other = some value) : t.get? other = some value := by
  rw [get?_erase] at h
  split at h
  · cases h
  · exact h

theorem nodup_entries (t : Table κ ν) : t.entries.Nodup := by
  refine t.ascending.imp fun {a b} hbefore heq => ?_
  rw [heq, KeyOrder.irrefl] at hbefore
  exact Bool.false_ne_true hbefore

theorem ext_get? {s t : Table κ ν} (h : ∀ key, s.get? key = t.get? key) : s = t := by
  have hmem : ∀ entry, entry ∈ s.entries ↔ entry ∈ t.entries := by
    rintro ⟨key, value⟩
    rw [← get?_eq_some_iff, ← get?_eq_some_iff, h]
  have hperm : s.entries.Perm t.entries :=
    (List.perm_ext_iff_of_nodup s.nodup_entries t.nodup_entries).2 hmem
  refine Table.ext (hperm.eq_of_pairwise ?_ s.ascending t.ascending)
  intro a b _ _ hab hba
  have hloop := KeyOrder.trans hab hba
  rw [KeyOrder.irrefl] at hloop
  exact absurd hloop Bool.false_ne_true

/-! ### Tables of lists -/

omit [KeyOrder κ] in
/-- The values that a list has for a key, in their order. -/
def valuesAt (key : κ) (entries : List (κ × ν)) : List ν := (entries.filter (·.1 = key)).map (·.2)

omit [KeyOrder κ] in
theorem valuesAt_cons (key : κ) (entry : κ × ν) (rest : List (κ × ν)) :
    valuesAt key (entry :: rest) = if entry.1 = key then entry.2 :: valuesAt key rest else valuesAt key rest := by
  by_cases h : entry.1 = key <;> simp [valuesAt, h]

omit [KeyOrder κ] in
theorem valuesAt_singleton (key : κ) (entry : κ × ν) :
    valuesAt key [entry] = if entry.1 = key then [entry.2] else [] := valuesAt_cons key entry []

omit [KeyOrder κ] in
theorem mem_valuesAt {key : κ} {value : ν} {entries : List (κ × ν)} :
    value ∈ valuesAt key entries ↔ (key, value) ∈ entries := by
  simp [valuesAt]

omit [KeyOrder κ] in
theorem valuesAt_append (key : κ) (entries others : List (κ × ν)) :
    valuesAt key (entries ++ others) = valuesAt key entries ++ valuesAt key others := by
  simp [valuesAt]

/-- Of several values for one key the last counts. -/
theorem get?_ofList (entries : List (κ × ν)) (key : κ) :
    (ofList entries).get? key = (valuesAt key entries).getLast? := by
  have hfrom : ∀ t : Table κ ν, (entries.foldl (fun t entry => t.insert entry.1 entry.2) t).get? key =
      (valuesAt key entries).getLast?.or (t.get? key) := by
    induction entries with
    | nil => simp [valuesAt]
    | cons entry rest ih =>
        intro t
        rw [List.foldl_cons, ih, get?_insert, valuesAt_cons]
        by_cases h : entry.1 = key
        · rw [if_pos h, if_pos h.symm, List.getLast?_cons]
          cases (valuesAt key rest).getLast? <;> rfl
        · rw [if_neg h, if_neg (Ne.symm h)]
  exact (hfrom empty).trans (Option.or_none ..)

/-- A table has at most one value for a key. -/
theorem valuesAt_entries (t : Table κ ν) (key : κ) : valuesAt key t.entries = (t.get? key).toList := by
  obtain ⟨entries, hascending⟩ := t
  show valuesAt key entries = ((entries.find? (·.1 = key)).map (·.2)).toList
  induction entries with
  | nil => rfl
  | cons entry rest ih =>
      obtain ⟨hfirst, hrest⟩ := List.pairwise_cons.1 hascending
      rw [valuesAt_cons]
      split
      next h =>
        have hnone : rest.filter (·.1 = key) = [] := by
          refine List.filter_eq_nil_iff.2 fun other hmem hkey => ?_
          have hbefore := hfirst other hmem
          rw [h, of_decide_eq_true hkey, KeyOrder.irrefl] at hbefore
          cases hbefore
        simp [valuesAt, hnone, h]
      next h => rw [ih hrest, List.find?_cons_of_neg (by simpa using h)]

theorem mem_of_mem_entries_ofList {entries : List (κ × ν)} {entry : κ × ν} (h : entry ∈ (ofList entries).entries) :
    entry ∈ entries := by
  rw [← get?_eq_some_iff, get?_ofList] at h
  exact mem_valuesAt.1 (List.mem_of_getLast? h)

/-- A table is made of its own entries. -/
theorem ofList_entries (t : Table κ ν) : ofList t.entries = t := by
  refine ext_get? fun key => ?_
  rw [get?_ofList, valuesAt_entries]
  cases t.get? key <;> rfl

end ArgumentDiagram.Table
