import ArgumentDiagram.Table.Basic

/-!
What each operation on tables does to the answers of `get?`, and to the keys.
-/

namespace ArgumentDiagram.Table

variable {κ ν μ : Type} [DecidableEq κ] [KeyOrder κ]

theorem mem_entries_of_get? {t : Table κ ν} {key : κ} {value : ν} (h : t.get? key = some value) :
    (key, value) ∈ t.entries := by
  simp only [get?, Option.map_eq_some_iff] at h
  obtain ⟨entry, hfind, rfl⟩ := h
  have hkey := List.find?_some hfind
  simp only [decide_eq_true_eq] at hkey
  exact hkey ▸ List.mem_of_find?_eq_some hfind

theorem mem_keys_of_get? {t : Table κ ν} {key : κ} {value : ν} (h : t.get? key = some value) :
    key ∈ t.keys :=
  List.mem_map.2 ⟨_, mem_entries_of_get? h, rfl⟩

theorem find?_of_mem {entries : List (κ × ν)} {key : κ} {value : ν}
    (h : entries.Pairwise fun a b => KeyOrder.before a.1 b.1 = true) (hmem : (key, value) ∈ entries) :
    entries.find? (·.1 = key) = some (key, value) := by
  induction entries with
  | nil => simp at hmem
  | cons entry rest ih =>
      obtain ⟨hfirst, hrest⟩ := List.pairwise_cons.1 h
      rcases List.mem_cons.1 hmem with rfl | hmem
      · simp
      · have hne : entry.1 ≠ key := by
          intro heq
          have := hfirst _ hmem
          rw [heq, KeyOrder.irrefl] at this
          exact Bool.false_ne_true this
        rw [List.find?_cons_of_neg (by simpa using hne)]
        exact ih hrest hmem

theorem get?_eq_some_iff {t : Table κ ν} {key : κ} {value : ν} :
    t.get? key = some value ↔ (key, value) ∈ t.entries := by
  refine ⟨mem_entries_of_get?, fun h => ?_⟩
  rw [get?, find?_of_mem t.ascending h]
  rfl

theorem contains_eq_isSome {t : Table κ ν} {key : κ} : t.contains key = (t.get? key).isSome := by
  rw [Bool.eq_iff_iff, contains, get?, List.any_eq_true, Option.isSome_map, List.find?_isSome]

@[simp]
theorem get?_empty (key : κ) : (empty : Table κ ν).get? key = none := rfl

theorem find?_insertEntry (key other : κ) (value : ν) (entries : List (κ × ν)) :
    ((insertEntry key value entries).find? (·.1 = other)).map (·.2)
      = if other = key then some value else (entries.find? (·.1 = other)).map (·.2) := by
  induction entries with
  | nil => by_cases h : key = other <;> simp [insertEntry, h, eq_comm]
  | cons entry rest ih =>
      rw [insertEntry]
      by_cases h : other = key
      · subst h
        split
        · simp
        · split
          · simp
          next hne =>
            rw [List.find?_cons_of_neg (by simpa using Ne.symm hne), ih]
            simp
      · rw [if_neg h] at ih ⊢
        have hkey : ¬key = other := fun heq => h heq.symm
        split
        · simp [hkey]
        · split
          next heq => simp [hkey, ← heq]
          next =>
            by_cases hentry : entry.1 = other
            · simp [hentry]
            · rw [List.find?_cons_of_neg (by simpa using hentry),
                List.find?_cons_of_neg (by simpa using hentry), ih]

theorem get?_insert (t : Table κ ν) (key other : κ) (value : ν) :
    (t.insert key value).get? other = if other = key then some value else t.get? other :=
  find?_insertEntry key other value t.entries

theorem get?_erase (t : Table κ ν) (key other : κ) :
    (t.erase key).get? other = if other = key then none else t.get? other := by
  ext value
  rw [get?_eq_some_iff]
  by_cases h : other = key <;> simp [erase, h, get?_eq_some_iff]

theorem get?_mapValues (t : Table κ ν) (f : ν → μ) (key : κ) :
    (t.mapValues f).get? key = (t.get? key).map f := by
  simp [get?, mapValues, List.find?_map, Function.comp_def]

theorem get?_modify (t : Table κ ν) (key other : κ) (f : ν → ν) :
    (t.modify key f).get? other = (t.get? other).map (if other = key then f else id) := by
  simp only [get?, modify, List.find?_map, Function.comp_def, Option.map_map]
  cases hfind : t.entries.find? (·.1 = other) with
  | none => rfl
  | some entry =>
      have hkey := List.find?_some hfind
      simp only [decide_eq_true_eq] at hkey
      subst hkey
      by_cases h : entry.1 = key <;> simp [h]

@[simp]
theorem keys_mapValues (t : Table κ ν) (f : ν → μ) : (t.mapValues f).keys = t.keys := by
  simp [keys, mapValues]

theorem mem_values_iff {t : Table κ ν} {value : ν} :
    value ∈ t.values ↔ ∃ key, t.get? key = some value := by
  simp only [values, List.mem_map, Prod.exists, get?_eq_some_iff]
  exact ⟨fun ⟨key, _, hmem, heq⟩ => ⟨key, heq ▸ hmem⟩, fun ⟨key, hmem⟩ => ⟨key, value, hmem, rfl⟩⟩

/-- A key stands in a table once. -/
theorem nodup_keys (t : Table κ ν) : t.keys.Nodup := by
  refine List.pairwise_map.2 (t.ascending.imp fun {a b} hbefore heq => ?_)
  rw [heq, KeyOrder.irrefl] at hbefore
  exact Bool.false_ne_true hbefore

theorem mem_keys_erase {t : Table κ ν} {key other : κ} :
    other ∈ (t.erase key).keys ↔ other ≠ key ∧ other ∈ t.keys := by
  rw [← contains_iff, ← contains_iff, contains_eq_isSome, contains_eq_isSome, get?_erase]
  by_cases h : other = key <;> simp [h]

end ArgumentDiagram.Table
