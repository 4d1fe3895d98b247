import ArgumentDiagram.Table.Order

/-!
Tables: values under distinct keys, in the order of the keys. The order is part of the type, so a table is
determined by what it answers.
-/

namespace ArgumentDiagram

structure Table (κ ν : Type) [DecidableEq κ] [KeyOrder κ] where
  entries : List (κ × ν)
  ascending : entries.Pairwise fun a b => KeyOrder.before a.1 b.1 = true

namespace Table

variable {κ ν μ : Type} [DecidableEq κ] [KeyOrder κ]

def empty : Table κ ν := ⟨[], .nil⟩

instance : Inhabited (Table κ ν) := ⟨empty⟩

def get? (t : Table κ ν) (key : κ) : Option ν := (t.entries.find? (·.1 = key)).map (·.2)

def contains (t : Table κ ν) (key : κ) : Bool := t.entries.any (·.1 = key)

def keys (t : Table κ ν) : List κ := t.entries.map (·.1)

def values (t : Table κ ν) : List ν := t.entries.map (·.2)

def size (t : Table κ ν) : Nat := t.entries.length

/-- Puts an entry at its place in a list in key order, over an entry of the same key. -/
def insertEntry (key : κ) (value : ν) : List (κ × ν) → List (κ × ν)
  | [] => [(key, value)]
  | entry :: rest =>
    if KeyOrder.before key entry.1 then (key, value) :: entry :: rest
    else if key = entry.1 then (key, value) :: rest
    else entry :: insertEntry key value rest

theorem mem_insertEntry {key : κ} {value : ν} {a : κ × ν} {entries : List (κ × ν)}
    (h : a ∈ insertEntry key value entries) : a = (key, value) ∨ a ∈ entries := by
  induction entries with
  | nil => simpa [insertEntry] using h
  | cons entry rest ih =>
      rw [insertEntry] at h
      split at h
      · simpa using h
      · split at h
        · rcases List.mem_cons.1 h with h | h
          · exact .inl h
          · exact .inr (List.mem_cons_of_mem _ h)
        · rcases List.mem_cons.1 h with h | h
          · exact .inr (h ▸ List.mem_cons_self ..)
          · rcases ih h with h | h
            · exact .inl h
            · exact .inr (List.mem_cons_of_mem _ h)

theorem insertEntry_ascending {key : κ} {value : ν} {entries : List (κ × ν)}
    (h : entries.Pairwise fun a b => KeyOrder.before a.1 b.1 = true) :
    (insertEntry key value entries).Pairwise fun a b => KeyOrder.before a.1 b.1 = true := by
  induction entries with
  | nil => simp [insertEntry]
  | cons entry rest ih =>
      obtain ⟨hfirst, hrest⟩ := List.pairwise_cons.1 h
      rw [insertEntry]
      split
      next hbefore =>
        refine List.pairwise_cons.2 ⟨fun a ha => ?_, h⟩
        rcases List.mem_cons.1 ha with rfl | ha
        · exact hbefore
        · exact KeyOrder.trans hbefore (hfirst a ha)
      next hbefore =>
        split
        next heq => exact List.pairwise_cons.2 ⟨fun a ha => heq ▸ hfirst a ha, hrest⟩
        next hne =>
          refine List.pairwise_cons.2 ⟨fun a ha => ?_, ih hrest⟩
          rcases mem_insertEntry ha with rfl | ha
          · exact KeyOrder.connected (by simpa using hbefore) hne
          · exact hfirst a ha

def insert (t : Table κ ν) (key : κ) (value : ν) : Table κ ν :=
  ⟨insertEntry key value t.entries, insertEntry_ascending t.ascending⟩

def ofList (entries : List (κ × ν)) : Table κ ν :=
  entries.foldl (fun t (key, value) => t.insert key value) empty

/-- Removes the entry of a key, if there is one. -/
def erase (t : Table κ ν) (key : κ) : Table κ ν :=
  ⟨t.entries.filter (·.1 ≠ key), t.ascending.filter _⟩

/-- Changes every value. -/
def mapValues (t : Table κ ν) (f : ν → μ) : Table κ μ :=
  ⟨t.entries.map fun (key, value) => (key, f value),
    List.pairwise_map.2 t.ascending⟩

/-- Changes the value of a key, if it has one. -/
def modify (t : Table κ ν) (key : κ) (f : ν → ν) : Table κ ν :=
  ⟨t.entries.map fun (k, value) => (k, if k = key then f value else value),
    List.pairwise_map.2 t.ascending⟩

theorem contains_iff {t : Table κ ν} {key : κ} : t.contains key = true ↔ key ∈ t.keys := by
  simp [contains, keys]

theorem size_erase_lt {t : Table κ ν} {key : κ} (h : t.contains key = true) :
    (t.erase key).size < t.size := by
  obtain ⟨entry, hmem, heq⟩ := List.any_eq_true.1 h
  refine Nat.lt_of_le_of_ne (List.length_filter_le ..) fun hlen => ?_
  have := List.length_filter_eq_length_iff.1 hlen entry hmem
  simp_all

@[ext]
theorem ext {s t : Table κ ν} (h : s.entries = t.entries) : s = t := by
  cases s; cases t; simp_all

end Table

end ArgumentDiagram
