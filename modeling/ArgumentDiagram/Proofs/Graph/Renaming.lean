import ArgumentDiagram.Proofs.Graph.Growth
import Mathlib.Logic.Equiv.Basic

/-!
Graphs that differ only in the handles of their entities.
-/

namespace ArgumentDiagram

/-- New handles for old ones. -/
structure Renaming where
  claims : Equiv.Perm ClaimId
  relations : Equiv.Perm RelationId

namespace Renaming

variable {α β : Type} (ρ : Renaming)

def entity : Entity → Entity
  | .claim id => .claim (ρ.claims id)
  | .relation id => .relation (ρ.relations id)

def claim (c : Claim α) : Claim α := { c with id := ρ.claims c.id }

def relation (r : Relation) : Relation :=
  { r with id := ρ.relations r.id, source := ρ.claims r.source, target := ρ.entity r.target }

/-- A graph holds under the new handles what another one holds under the old ones. -/
structure Carries (g g' : Graph α) : Prop where
  claim? : ∀ id, g'.claim? (ρ.claims id) = (g.claim? id).map ρ.claim
  relation? : ∀ id, g'.relation? (ρ.relations id) = (g.relation? id).map ρ.relation

/-- Lists with the same members, each of them once, are matched by a bijection that leaves all else alone. -/
theorem exists_map_eq [DecidableEq β] {items items' : List β} (hperm : items.Perm items')
    (hnodup : items.Nodup) : ∃ σ : Equiv.Perm β, items.map σ = items' ∧ ∀ b ∉ items, σ b = b := by
  induction hperm with
  | nil => exact ⟨.refl β, rfl, fun _ _ => rfl⟩
  | @cons b rest rest' _ ih =>
      obtain ⟨hfirst, hrest⟩ := List.nodup_cons.1 hnodup
      obtain ⟨σ, hmap, hfixed⟩ := ih hrest
      refine ⟨σ, by rw [List.map_cons, hmap, hfixed b hfirst], fun c hc => hfixed c fun hmem => ?_⟩
      exact hc (List.mem_cons_of_mem _ hmem)
  | swap a b rest =>
      obtain ⟨hb, ha, -⟩ : b ∉ a :: rest ∧ a ∉ rest ∧ rest.Nodup := by
        simpa [List.nodup_cons] using hnodup
      have hfixed : ∀ c, c ∉ b :: a :: rest → Equiv.swap a b c = c := by
        intro c hc
        simp only [List.mem_cons, not_or] at hc
        exact Equiv.swap_apply_of_ne_of_ne hc.2.1 hc.1
      have hrest : rest.map (Equiv.swap a b) = rest := by
        refine List.map_congr_left (fun c hc => ?_) |>.trans (List.map_id rest)
        refine Equiv.swap_apply_of_ne_of_ne ?_ ?_
        · rintro rfl
          exact ha hc
        · rintro rfl
          exact hb (List.mem_cons_of_mem _ hc)
      exact ⟨Equiv.swap a b, by simp [hrest], hfixed⟩
  | @trans first second third h _ ih ih' =>
      obtain ⟨σ, hmap, hfixed⟩ := ih hnodup
      obtain ⟨τ, hmap', hfixed'⟩ := ih' (h.nodup_iff.1 hnodup)
      refine ⟨σ.trans τ, by rw [← hmap', ← hmap, List.map_map]; rfl, fun b hb => ?_⟩
      rw [Equiv.trans_apply, hfixed b hb, hfixed' b (fun hmem => hb (h.mem_iff.2 hmem))]

end Renaming

end ArgumentDiagram
