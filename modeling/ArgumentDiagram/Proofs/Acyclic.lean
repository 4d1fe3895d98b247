import Mathlib.Data.Fintype.Order
import Mathlib.Logic.Relation

/-!
Steps without cycles between finitely many things come to an end.
-/

open Relation

namespace ArgumentDiagram.Acyclic

variable {β : Type} {R : β → β → Prop}

theorem wellFounded_after (hacyclic : ∀ b, ¬TransGen R b b) (items : List β) :
    WellFounded fun c b : { b // b ∈ items } => TransGen R b.1 c.1 := by
  let after (c b : { b // b ∈ items }) : Prop := TransGen R b.1 c.1
  have : Finite { b // b ∈ items } := List.finite_toSet items
  have : IsTrans _ after := ⟨fun _ _ _ hab hbc => hbc.trans hab⟩
  have : Std.Irrefl after := ⟨fun b h => hacyclic b.1 h⟩
  exact Finite.wellFounded_of_trans_of_irrefl after

theorem exists_last (hacyclic : ∀ b, ¬TransGen R b b) {items : List β} (hitems : items ≠ []) :
    ∃ b ∈ items, ∀ c ∈ items, ¬R b c := by
  obtain ⟨first, hfirst⟩ := List.exists_mem_of_ne_nil items hitems
  obtain ⟨b, -, hlast⟩ := (wellFounded_after hacyclic items).has_min Set.univ ⟨⟨first, hfirst⟩, trivial⟩
  exact ⟨b.1, b.2, fun c hc hstep => hlast ⟨c, hc⟩ trivial (.single hstep)⟩

end ArgumentDiagram.Acyclic
