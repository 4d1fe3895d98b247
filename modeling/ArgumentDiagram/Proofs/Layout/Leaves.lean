import ArgumentDiagram.Proofs.Graph.Paths
import ArgumentDiagram.Proofs.Layout.Recursion
import Mathlib.Data.Set.Card

/-!
The leaves of the columns that are built. A column holds its claims once for each path of relations from
them to the claim of the column: no relation is left out, and none is followed twice.
-/

namespace ArgumentDiagram.Layout

variable {α : Type} {g : Graph α} {settings : LayoutSettings α}

theorem leaves_claimColumn (id : ClaimId) (size : Size α) (incoming : List (LayoutBox α)) :
    (claimColumn settings id size incoming).leaves = id :: incoming.flatMap LayoutBox.leaves := by
  cases incoming <;> simp [claimColumn, column, row, LayoutBox.leaves_container, LayoutBox.leaves]

theorem leaves_relationColumn (incoming : List (LayoutBox α)) (source : LayoutBox α) :
    (relationColumn settings incoming source).leaves =
      incoming.flatMap LayoutBox.leaves ++ source.leaves := by
  cases incoming <;> simp [relationColumn, column, row, LayoutBox.leaves_container, LayoutBox.leaves]

/-- The claims at which certain paths start, each path counted once. -/
def Traces (paths : ClaimId → List RelationId → Prop) (claims : List ClaimId) : Prop :=
  ∃ traced : List (ClaimId × List RelationId), traced.Nodup ∧ traced.map (·.1) = claims ∧
    ∀ c path, (c, path) ∈ traced ↔ paths c path

variable {paths paths' : ClaimId → List RelationId → Prop} {claims claims' : List ClaimId}

theorem Traces.of_iff (h : Traces paths claims) (hiff : ∀ c path, paths' c path ↔ paths c path) :
    Traces paths' claims := by
  obtain ⟨traced, hnodup, hclaims, hmem⟩ := h
  exact ⟨traced, hnodup, hclaims, fun c path => (hmem c path).trans (hiff c path).symm⟩

theorem traces_nil : Traces (fun _ _ => False) [] := ⟨[], .nil, rfl, by simp⟩

theorem traces_singleton (id : ClaimId) : Traces (fun c path => c = id ∧ path = []) [id] :=
  ⟨[(id, [])], List.nodup_singleton _, rfl, by simp⟩

theorem Traces.append (h : Traces paths claims) (h' : Traces paths' claims')
    (hdisjoint : ∀ c path, paths c path → ¬paths' c path) :
    Traces (fun c path => paths c path ∨ paths' c path) (claims ++ claims') := by
  obtain ⟨traced, hnodup, rfl, hmem⟩ := h
  obtain ⟨traced', hnodup', rfl, hmem'⟩ := h'
  refine ⟨traced ++ traced', hnodup.append hnodup' ?_, List.map_append, fun c path => ?_⟩
  · rintro ⟨c, path⟩ hleft hright
    exact hdisjoint c path ((hmem c path).1 hleft) ((hmem' c path).1 hright)
  · rw [List.mem_append, hmem, hmem']

/-- Going one relation further. -/
theorem Traces.snoc (h : Traces paths claims) (id : RelationId) :
    Traces (fun c path => ∃ before, path = before ++ [id] ∧ paths c before) claims := by
  obtain ⟨traced, hnodup, rfl, hmem⟩ := h
  refine ⟨traced.map fun (c, path) => (c, path ++ [id]), ?_, ?_, fun c path => ?_⟩
  · refine hnodup.map ?_
    rintro ⟨c, path⟩ ⟨c', path'⟩ heq
    simp only [Prod.mk.injEq, List.append_cancel_right_eq] at heq
    exact Prod.ext heq.1 heq.2
  · rw [List.map_map]
    rfl
  · simp only [List.mem_map, Prod.exists, Prod.mk.injEq]
    constructor
    · rintro ⟨c, before, hbefore, rfl, rfl⟩
      exact ⟨before, rfl, (hmem c before).1 hbefore⟩
    · rintro ⟨before, rfl, hbefore⟩
      exact ⟨c, before, (hmem c before).2 hbefore, rfl, rfl⟩

/-- Columns side by side, no path coming in through two of them. -/
theorem traces_flatMap {β : Type} {paths : β → ClaimId → List RelationId → Prop} {entrances : List β}
    {columns : List (LayoutBox α)}
    (h : List.Forall₂ (fun b (column : LayoutBox α) => Traces (paths b) column.leaves) entrances columns)
    (hnodup : entrances.Nodup)
    (hunique : ∀ b ∈ entrances, ∀ b' ∈ entrances, ∀ c path, paths b c path → paths b' c path → b = b') :
    Traces (fun c path => ∃ b ∈ entrances, paths b c path) (columns.flatMap LayoutBox.leaves) := by
  induction h with
  | nil => exact traces_nil.of_iff (by simp)
  | @cons b column entrances columns hfirst _ ih =>
      obtain ⟨hnotin, hnodup⟩ := List.nodup_cons.1 hnodup
      have hrest := ih hnodup fun b hb b' hb' =>
        hunique b (List.mem_cons_of_mem _ hb) b' (List.mem_cons_of_mem _ hb')
      refine (hfirst.append hrest ?_).of_iff (by simp)
      rintro c path hpath ⟨b', hb', hpath'⟩
      have heq := hunique b List.mem_cons_self b' (List.mem_cons_of_mem _ hb') c path hpath hpath'
      exact hnotin (heq ▸ hb')

theorem Traces.mem_iff (h : Traces paths claims) {c : ClaimId} : c ∈ claims ↔ ∃ path, paths c path := by
  obtain ⟨traced, -, rfl, hmem⟩ := h
  simp [hmem]

theorem Traces.encard_eq_count (h : Traces paths claims) (c : ClaimId) :
    { path | paths c path }.encard = claims.count c := by
  obtain ⟨traced, hnodup, rfl, hmem⟩ := h
  let fromHere := (traced.filter (·.1 = c)).map (·.2)
  have hpaths : { path | paths c path } = (fromHere.toFinset : Set (List RelationId)) := by
    ext path
    simp [fromHere, ← hmem]
  have hfromHere : fromHere.Nodup := by
    refine (hnodup.filter _).map_on ?_
    rintro ⟨b, path⟩ hb ⟨b', path'⟩ hb' heq
    have hstart : b = c := by simpa using (List.mem_filter.1 hb).2
    have hstart' : b' = c := by simpa using (List.mem_filter.1 hb').2
    exact Prod.ext (hstart.trans hstart'.symm) heq
  calc { path | paths c path }.encard = fromHere.toFinset.card := by
        rw [hpaths, Set.encard_coe_eq_coe_finsetCard]
    _ = fromHere.length := by rw [List.toFinset_card_of_nodup hfromHere]
    _ = ((traced.map (·.1)).count c : ℕ) := by
        rw [List.count, List.countP_map, List.countP_eq_length_filter, List.length_map]
        rfl

/-- The leaves of the column of a claim stand for the paths to the claim, those of the column of a relation
for the paths that come in through it. -/
theorem traces_columns (h : g.WellFormed) :
    (∀ path id box, claimBox g settings path id = .ok box →
      Traces (fun c route => g.IsPath c route id) box.leaves) ∧
    ∀ path id box, relationBox g settings path id = .ok box →
      Traces (fun c route => g.IsPathInto c route id) box.leaves := by
  apply built_induction h
  · intro path id claim size incoming _ _ _ hincoming
    have hcolumns := traces_flatMap hincoming (Graph.nodup_incoming h _)
      fun b hb b' hb' c route => Graph.isPathInto_unique h hb hb'
    rw [leaves_claimColumn]
    refine ((traces_singleton id).append hcolumns ?_).of_iff fun c route => Graph.isPath_iff h
    rintro c route ⟨-, rfl⟩ ⟨other, -, before, last, r, heq, -⟩
    exact absurd heq (by simp)
  · intro path id r incoming source hr hincoming hsource
    have hcolumns := traces_flatMap hincoming (Graph.nodup_incoming h _)
      fun b hb b' hb' c route => Graph.isPathInto_unique h hb hb'
    rw [leaves_relationColumn]
    refine (hcolumns.append (hsource.snoc id) ?_).of_iff fun c route =>
      (Graph.isPathInto_iff h hr).trans Or.comm
    rintro c route ⟨other, hother, hinto⟩ ⟨before, rfl, -⟩
    exact Graph.not_isPathInto_of_last h hother hinto

end ArgumentDiagram.Layout
