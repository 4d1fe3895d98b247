import ArgumentDiagram.Proofs.Canvas.Run
import ArgumentDiagram.Proofs.Graph.WellFormed
import Mathlib.Data.List.Rotate

/-!
Going from claim to claim by the tab key. The selection is a position among the claims, which every press moves by
one, around the ends, until it has reached the last claim. Main statement: so a round takes in every claim once, in
either direction, and ends where it started, with nothing selected.
-/

namespace ArgumentDiagram.Canvas

variable {α : Type}

/-- The position that a press goes to after `k` others in a round. Going forwards a round starts at the first claim.
Going backwards it starts at the last but one, so that both ways it ends at the last. -/
def turn (count : Nat) (backwards : Bool) (k : Nat) : Nat :=
  if backwards then (2 * count - 2 - k) % count else k

section

variable {count k : Nat} {backwards : Bool}

/-- Going backwards, the positions fall from the last but one to the first. -/
theorem turn_backwards (h : k + 1 < count) : turn count true k = count - 2 - k := by
  have hwrap : 2 * count - 2 - k = count - 2 - k + count := by omega
  rw [turn, if_pos rfl, hwrap, Nat.add_mod_right, Nat.mod_eq_of_lt (by omega)]

theorem turn_last (h : k + 1 = count) : turn count backwards k = count - 1 := by
  subst h
  cases backwards with
  | false => rfl
  | true =>
      have hlast : 2 * (k + 1) - 2 - k = k := by omega
      rw [turn, if_pos rfl, hlast, Nat.mod_eq_of_lt k.lt_succ_self, Nat.add_sub_cancel]

/-- A position that is gone to is one of a claim. -/
theorem nextIndex_lt {index : Int} {i : Nat} (h : nextIndex count index backwards = some i) (hcount : 0 < count) :
    i < count := by
  unfold nextIndex at h
  split at h
  · obtain rfl := Option.some.inj h
    have hpos : (0 : Int) < count := Int.natCast_pos.2 hcount
    have hlt := Int.emod_lt_of_pos ((count : Int) + index + if backwards then -1 else 1) hpos
    omega
  · cases h

/-- Where a step goes, from a position before the last or from none. -/
theorem nextIndex_of_step {index : Int} {n : Nat} (h : index < count - 1)
    (hstep : 2 * (count : Int) + index + (if backwards then -1 else 1) = n) :
    nextIndex count index backwards = some (n % count) := by
  have hround : (n : Int) = (count + index + if backwards then -1 else 1) + count := by
    rw [← hstep]
    generalize (if backwards then (-1 : Int) else 1) = step
    omega
  have hmod : (count + index + if backwards then -1 else 1) % (count : Int) = ((n % count : Nat) : Int) := by
    rw [Int.natCast_emod, hround, Int.add_emod_right]
  rw [nextIndex, if_pos h, hmod, Int.toNat_natCast]

/-- A round starts from no position at all. -/
theorem nextIndex_start (h : 0 < count) : nextIndex count (-1) backwards = some (turn count backwards 0) := by
  have hbefore : (-1 : Int) < count - 1 := by omega
  cases backwards with
  | false =>
      have hstep : 2 * (count : Int) + -1 + 1 = (2 * count : Nat) := by omega
      have hnext : nextIndex count (-1) false = some (2 * count % count) := nextIndex_of_step hbefore hstep
      rw [hnext, Nat.mul_mod_left]
      rfl
  | true =>
      have hstep : 2 * (count : Int) + -1 + -1 = (2 * count - 2 : Nat) := by omega
      exact nextIndex_of_step hbefore hstep

/-- Each position of a round leads to the next one, and the last one to none. -/
theorem nextIndex_turn (h : k < count) : nextIndex count (turn count backwards k) backwards =
    if k + 1 < count then some (turn count backwards (k + 1)) else none := by
  split
  next hmore =>
    cases backwards with
    | false =>
        have hbefore : (k : Int) < count - 1 := by omega
        have hstep : 2 * (count : Int) + k + 1 = (k + 1 + count * 2 : Nat) := by omega
        have hnext : nextIndex count k false = some ((k + 1 + count * 2) % count) := nextIndex_of_step hbefore hstep
        rw [Nat.add_mul_mod_self_left, Nat.mod_eq_of_lt hmore] at hnext
        exact hnext
    | true =>
        rw [turn_backwards hmore]
        have hbefore : ((count - 2 - k : Nat) : Int) < count - 1 := by omega
        have hstep : 2 * (count : Int) + (count - 2 - k : Nat) + -1 = (2 * count - 2 - (k + 1) + count : Nat) := by
          omega
        have hnext : nextIndex count (count - 2 - k : Nat) true = some ((2 * count - 2 - (k + 1) + count) % count) :=
          nextIndex_of_step hbefore hstep
        rw [Nat.add_mod_right] at hnext
        exact hnext
  next hlast =>
    have hpast : ¬((count - 1 : Nat) : Int) < count - 1 := by omega
    rw [turn_last (by omega), nextIndex, if_neg hpast]

end

/-- The order in which a round goes through claims. -/
def tabOrder (ids : List ClaimId) (backwards : Bool) : List ClaimId :=
  if backwards then ids.reverse.rotate 1 else ids

theorem tabOrder_perm (ids : List ClaimId) (backwards : Bool) : (tabOrder ids backwards).Perm ids := by
  cases backwards with
  | false => exact .refl ids
  | true => exact (List.rotate_perm ..).trans (List.reverse_perm ids)

theorem getElem?_tabOrder {ids : List ClaimId} {backwards : Bool} {k : Nat} (h : k < ids.length) :
    (tabOrder ids backwards)[k]? = ids[turn ids.length backwards k]? := by
  cases backwards with
  | false => rfl
  | true =>
      rw [tabOrder, if_pos rfl, List.getElem?_rotate (by simpa using h), List.length_reverse]
      by_cases hmore : k + 1 < ids.length
      · rw [Nat.mod_eq_of_lt hmore, List.getElem?_reverse hmore, turn_backwards hmore]
        congr 1
        omega
      · have hlast : k + 1 = ids.length := by omega
        rw [hlast, Nat.mod_self, List.getElem?_reverse (by omega), turn_last hlast, Nat.sub_zero]

/-! ### Presses -/

section

variable {c : Canvas α} {ids : List ClaimId} {id : ClaimId} {i k : Nat} {backwards : Bool}

theorem selectedIndex_of_nil (h : c.selected = []) (ids : List ClaimId) : c.selectedIndex ids = -1 := by
  rw [selectedIndex, h]
  rfl

/-- The claim at a position is found there, as no other claim is the same. -/
theorem selectedIndex_of_getElem? (hnodup : ids.Nodup) (hget : ids[i]? = some id) (h : c.selected = [id]) :
    c.selectedIndex ids = i := by
  obtain ⟨hi, rfl⟩ := List.getElem?_eq_some_iff.1 hget
  have hfind : ids.findIdx? (· = ids[i]) = some i := by
    refine List.findIdx?_eq_some_iff_getElem.2 ⟨hi, decide_eq_true rfl, fun j hj => ?_⟩
    rw [decide_eq_true_iff, hnodup.getElem_inj_iff]
    exact hj.ne
  rw [selectedIndex, h, List.head?_cons]
  dsimp only
  rw [hfind]

/-- The first press selects the claim that a round starts at. -/
theorem selected_selectNext_of_nil (h : c.selected = []) (hlive : c.graph.claimIds ≠ []) (backwards : Bool) :
    (c.selectNext backwards).selected = (tabOrder c.graph.claimIds backwards)[0]?.toList := by
  have hcount : 0 < c.graph.claimIds.length := List.length_pos_iff.2 hlive
  rw [getElem?_tabOrder hcount, selectNext, selectedIndex_of_nil h, nextIndex_start hcount]
  rfl

/-- A press goes from each claim of a round to the next, and from the last one to none. -/
theorem selected_selectNext_of_getElem? (hget : (tabOrder c.graph.claimIds backwards)[k]? = some id)
    (h : c.selected = [id]) :
    (c.selectNext backwards).selected = (tabOrder c.graph.claimIds backwards)[k + 1]?.toList := by
  have hlength : (tabOrder c.graph.claimIds backwards).length = c.graph.claimIds.length :=
    (tabOrder_perm ..).length_eq
  have hk : k < c.graph.claimIds.length := hlength ▸ (List.getElem?_eq_some_iff.1 hget).1
  have hnodup : c.graph.claimIds.Nodup := c.graph.claims.nodup_keys
  rw [getElem?_tabOrder hk] at hget
  rw [selectNext, selectedIndex_of_getElem? hnodup hget h, nextIndex_turn hk]
  split
  next hmore =>
    rw [getElem?_tabOrder hmore]
    rfl
  next hlast =>
    rw [List.getElem?_eq_none (by omega)]
    rfl

variable [Scalar α]

theorem keyDown_tab (hlive : c.graph.claimIds ≠ []) (shift : Bool) :
    c.keyDown .tab shift = (true, c.selectNext shift) := by
  have htab : c.keyDown .tab shift =
      if c.graph.claimIds.isEmpty then (false, c) else (true, c.selectNext shift) := rfl
  rw [htab, if_neg (by simpa using hlive)]

/-- The canvas after some presses of the tab key. -/
def tabbed (c : Canvas α) (shift : Bool) (presses : Nat) : Canvas α :=
  c.after (List.replicate presses (.keyDown .tab shift))

theorem tabbed_succ (c : Canvas α) (shift : Bool) (presses : Nat) :
    c.tabbed shift (presses + 1) = ((c.tabbed shift presses).keyDown .tab shift).2 := by
  rw [tabbed, tabbed, after, List.replicate_succ', List.foldl_append]
  rfl

theorem graph_tabbed (c : Canvas α) (shift : Bool) (presses : Nat) : (c.tabbed shift presses).graph = c.graph := by
  induction presses with
  | zero => rfl
  | succ presses ih =>
      rw [tabbed_succ, ← ih]
      by_cases hlive : (c.tabbed shift presses).graph.claimIds = []
      · rw [keyDown]
        simp only [hlive, List.isEmpty_nil, if_true]
      · rw [keyDown_tab hlive]
        rfl

/-- Each press of a round selects the next claim of it, and the one after the last claim selects none. -/
theorem selected_tabbed (h : c.selected = []) (hlive : c.graph.claimIds ≠ []) (shift : Bool)
    (hk : k ≤ c.graph.claimIds.length) :
    (c.tabbed shift (k + 1)).selected = (tabOrder c.graph.claimIds shift)[k]?.toList := by
  induction k with
  | zero =>
      have hpress : c.tabbed shift 1 = (c.keyDown .tab shift).2 := rfl
      rw [hpress, keyDown_tab hlive]
      exact selected_selectNext_of_nil h hlive shift
  | succ k ih =>
      have hgraph := c.graph_tabbed shift (k + 1)
      have hlength : (tabOrder c.graph.claimIds shift).length = c.graph.claimIds.length :=
        (tabOrder_perm ..).length_eq
      obtain ⟨id, hget⟩ : ∃ id, (tabOrder c.graph.claimIds shift)[k]? = some id :=
        ⟨_, List.getElem?_eq_getElem (by omega)⟩
      have hselected := ih (by omega)
      rw [hget, Option.toList_some] at hselected
      rw [← hgraph] at hget hlive ⊢
      rw [tabbed_succ, keyDown_tab hlive]
      exact selected_selectNext_of_getElem? hget hselected

/-- **Rounds of the tab key.** Where there are no claims, the key is left alone. Otherwise it is handled, and no
position is gone to but that of a live claim, whatever was selected before: then that claim alone is selected, or
nothing is. If nothing was selected, as many presses as there are claims select all of them, each once, forwards in
the order of their handles, and one more press deselects the last. -/
theorem tab_goes_round (c : Canvas α) (shift : Bool) :
    let ids := c.graph.claimIds
    (ids = [] → c.keyDown .tab shift = (false, c)) ∧
    (ids ≠ [] →
      (c.keyDown .tab shift).1 = true ∧
      (∀ i, nextIndex ids.length (c.selectedIndex ids) shift = some i → i < ids.length) ∧
      ((c.keyDown .tab shift).2.selected = [] ∨
        ∃ id, c.graph.contains (.claim id) = true ∧ (c.keyDown .tab shift).2.selected = [id]) ∧
      (c.selected = [] →
        (∀ k ≤ ids.length, ((c.tabbed shift k).keyDown .tab shift).1 = true) ∧
        (∃ visited : List ClaimId, visited.length = ids.length ∧ visited.Nodup ∧
          (∀ id, id ∈ visited ↔ c.graph.contains (.claim id) = true) ∧
          (shift = false → visited.Pairwise (·.index < ·.index)) ∧
          ∀ k (hk : k < visited.length), (c.tabbed shift (k + 1)).selected = [visited[k]]) ∧
        (c.tabbed shift (ids.length + 1)).selected = [])) := by
  intro ids
  have hnodup : ids.Nodup := c.graph.claims.nodup_keys
  refine ⟨fun hnone => ?_, fun hlive => ⟨?_, fun i hi => ?_, ?_, fun hselected => ⟨fun k _ => ?_, ?_, ?_⟩⟩⟩
  · have hids : c.graph.claimIds = [] := hnone
    simp only [keyDown, hids, List.isEmpty_nil, if_true]
  · rw [keyDown_tab hlive]
  · exact nextIndex_lt hi (List.length_pos_iff.2 hlive)
  · obtain ⟨next, hnext, h⟩ := c.selectNext_cases shift
    rw [keyDown_tab hlive, h]
    cases next with
    | none => exact .inl rfl
    | some id => exact .inr ⟨id, Graph.mem_claimIds_iff.1 (hnext id rfl), rfl⟩
  · have hgraph := c.graph_tabbed shift k
    rw [keyDown_tab (hgraph ▸ hlive)]
  · have hperm := tabOrder_perm ids shift
    refine ⟨tabOrder ids shift, hperm.length_eq, hperm.nodup_iff.2 hnodup, fun id => ?_, ?_, fun k hk => ?_⟩
    · rw [hperm.mem_iff, Graph.mem_claimIds_iff]
    · rintro rfl
      exact List.pairwise_map.2 (c.graph.claims.ascending.imp of_decide_eq_true)
    · rw [selected_tabbed hselected hlive shift (hperm.length_eq ▸ hk.le), List.getElem?_eq_getElem hk]
      rfl
  · have hpast : (tabOrder ids shift)[ids.length]? = none :=
      List.getElem?_eq_none (tabOrder_perm ids shift).length_eq.le
    rw [selected_tabbed hselected hlive shift le_rfl, hpast]
    rfl

/-- Backwards through three claims, a fourth being deleted. -/
theorem tab_goes_round_of_gap :
    let operations : List (CanvasOperation Float32) :=
      [.addClaim "Streets are wet" .plain, .addClaim "It rains" .plain, .addClaim "It snows" .plain,
        .addClaim "It hails" .plain, .delete (.claim ⟨1⟩)]
    let c := (create (.blank 0 0 .estimate) ⟨100.0, 100.0⟩ (.ofTheme .classic 1.0)).after operations
    (c.graph.claimIds = [⟨0⟩, ⟨2⟩, ⟨3⟩] ∧ c.selected = []) ∧
      (∃ visited : List ClaimId, visited.Nodup ∧ (∀ id, id ∈ visited ↔ c.graph.contains (.claim id) = true) ∧
        ∀ k (hk : k < visited.length), (c.tabbed true (k + 1)).selected = [visited[k]]) ∧
      (c.tabbed true 3).selected = [⟨3⟩] ∧ (c.tabbed true 4).selected = [] := by
  intro operations c
  have hids : c.graph.claimIds = [⟨0⟩, ⟨2⟩, ⟨3⟩] := by decide +kernel
  have hlive : c.graph.claimIds ≠ [] := by simp [hids]
  obtain ⟨-, ⟨visited, -, hnodup, hmem, -, hselected⟩, hlast⟩ := ((tab_goes_round c true).2 hlive).2.2.2 rfl
  rw [hids] at hlast
  exact ⟨⟨hids, rfl⟩, ⟨visited, hnodup, hmem, hselected⟩, by decide +kernel, hlast⟩

end

end ArgumentDiagram.Canvas
