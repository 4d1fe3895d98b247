import ArgumentDiagram.Proofs.Graph.Reachable
import ArgumentDiagram.Proofs.Payload.Resolvable

/-!
Names that come twice. Main statement: of two entries with one name the later to have its turn is refused, if the
earlier one has sources. An entry without sources takes no name, so whether a name that comes twice is seen may
depend on the order of the entries.
-/

namespace ArgumentDiagram.Payload

variable {α : Type} [Scalar α] {payload : Payload} {g : Graph α} {entries : List RelationEntry}
  {first second : RelationEntry}

/-- One entry comes before another one of its name. -/
def Repeated (entries : List RelationEntry) (first second : RelationEntry) : Prop :=
  [first, second].Sublist entries ∧ first.id = second.id

theorem noRepeats_iff :
    NoRepeats entries ↔ ∀ {first second}, Repeated entries first second → first.sources = [] := by
  rw [NoRepeats, List.pairwise_iff_forall_sublist]
  constructor
  · intro h first second hrepeated
    exact h hrepeated.1 hrepeated.2
  · intro h first second hsublist hid
    exact h ⟨hsublist, hid⟩

/-- In whatever order the entries have their turns, at most one of those with a name has sources. -/
theorem NoRepeats.of_perm {order : List RelationEntry} (h : NoRepeats order) (hperm : order.Perm entries)
    (hrepeated : Repeated entries first second) : first.sources = [] ∨ second.sources = [] := by
  have hone : order.Pairwise fun a b => a.id = b.id → a.sources = [] ∨ b.sources = [] :=
    h.imp fun hsources hid => .inl (hsources hid)
  have hsymm : ∀ {a b : RelationEntry}, (a.id = b.id → a.sources = [] ∨ b.sources = []) →
      b.id = a.id → b.sources = [] ∨ a.sources = [] := fun h hid => (h hid.symm).symm
  exact List.pairwise_iff_forall_sublist.1 ((hperm.pairwise_iff hsymm).1 hone) hrepeated.1 hrepeated.2

/-- What comes after an entry into a claim has its turn after it. -/
theorem Repeated.in_order (hdone : payload.order.2 = []) (h : Repeated (inOrder payload.relations) first second)
    (hclaim : first.target.cls = "claim") : Repeated payload.order.1 first second := by
  obtain ⟨later, hlater⟩ := payload.prefix_order
  have hperm : later.Perm (payload.relations.filter (·.target.cls ≠ "claim")) :=
    (List.perm_append_left_iff _).1 (hlater ▸ (order_perm_of_done hdone).trans (inOrder_perm _).symm)
  refine ⟨?_, h.2⟩
  rw [← hlater]
  obtain ⟨front, back, hsplit, hfront, hback⟩ := List.sublist_append_iff.1 h.1
  rcases front with - | ⟨head, - | ⟨next, rest⟩⟩
  · obtain rfl : [first, second] = back := hsplit
    have hother : first ∈ payload.relations.filter (·.target.cls ≠ "claim") := hback.subset List.mem_cons_self
    simp [hclaim] at hother
  · obtain ⟨rfl, rfl⟩ := List.cons.inj hsplit
    exact hfront.append (List.singleton_sublist.2 (hperm.mem_iff.2 (hback.subset List.mem_cons_self)))
  · obtain ⟨rfl, htail⟩ := List.cons.inj hsplit
    obtain ⟨rfl, hnil⟩ := List.cons.inj htail
    obtain ⟨rfl, rfl⟩ := List.append_eq_nil_iff.1 hnil.symm
    exact hfront.trans (List.sublist_append_left ..)

theorem exists_error_iff (hg : g.WellFormed) : (∃ e, payload.load g = .error e) ↔
    ¬payload.Resolvable ∨ ∃ first second, Repeated payload.order.1 first second ∧ first.sources ≠ [] := by
  have hok : (∃ e, payload.load g = .error e) ↔ ¬∃ result, payload.load g = .ok result := by
    cases payload.load g <;> simp
  rw [hok, loads_iff hg, noRepeats_iff, not_and_or]
  simp

theorem exists_error_of_repeats (hg : g.WellFormed) (h : payload.order.2 = [] → ¬NoRepeats payload.order.1) :
    ∃ e, payload.load g = .error e := by
  cases hload : payload.load g with
  | error e => exact ⟨e, rfl⟩
  | ok result => exact absurd ((loads_iff hg).1 ⟨result, hload⟩).2 (h (load_eq_ok.1 hload).1)

/-- A payload is refused exactly if it cannot be resolved or a name comes again after an entry with sources had its
turn under it. So it is for two entries with sources, wherever they stand and whatever they are about, and for
any entry after one with sources that is about a claim. Then the graph is as before. -/
theorem repeats_refused (hg : g.Reachable) (payload : Payload) :
    ((∃ e, payload.load g = .error e) ↔
      ¬payload.Resolvable ∨ ∃ first second, Repeated payload.order.1 first second ∧ first.sources ≠ []) ∧
    (∀ first second, Repeated payload.relations first second → first.sources ≠ [] → second.sources ≠ [] →
      ∃ e, payload.load g = .error e) ∧
    (∀ first second, Repeated (inOrder payload.relations) first second → first.target.cls = "claim" →
      first.sources ≠ [] → ∃ e, payload.load g = .error e) ∧
    ∀ e, payload.load g = .error e → (g.perform (.loadPayload payload)).2 = g := by
  refine ⟨exists_error_iff hg.wellFormed, fun first second hrepeated hfirst hsecond => ?_,
    fun first second hrepeated hclaim hfirst => ?_, fun e hload => ?_⟩
  · refine exists_error_of_repeats hg.wellFormed fun hdone hrepeats => ?_
    exact (hrepeats.of_perm (order_perm_of_done hdone) hrepeated).elim hfirst hsecond
  · refine exists_error_of_repeats hg.wellFormed fun hdone hrepeats => ?_
    exact hfirst (noRepeats_iff.1 hrepeats (hrepeated.in_order hdone hclaim))
  · rw [Graph.perform, hload]

/-- The first and the last relation have one name. The first one has to wait for the second, so that the last one
has its turn before it. -/
def twice : Payload where
  claims := [⟨.number 1, "a", false, none⟩, ⟨.number 2, "b", false, none⟩]
  relations := [⟨.number 5, [⟨"claim", .number 2⟩], ⟨"relation", .number 6⟩, none, false⟩,
    ⟨.number 6, [⟨"claim", .number 2⟩], ⟨"claim", .number 1⟩, none, false⟩,
    ⟨.number 5, [⟨"claim", .number 2⟩, ⟨"claim", .number 1⟩], ⟨"claim", .number 1⟩, none, true⟩]

theorem repeats_refused_of_waiting :
    (Graph.empty.after [.addClaim "z" .plain] : Graph Float32).Reachable ∧
    ∃ first second e, Repeated twice.relations first second ∧ first.sources ≠ [] ∧ second.sources ≠ [] ∧
      twice.load (Graph.empty.after [.addClaim "z" .plain] : Graph Float32) = .error e ∧
      ((Graph.empty.after [.addClaim "z" .plain] : Graph Float32).perform (.loadPayload twice)).2 =
        Graph.empty.after [.addClaim "z" .plain] := by
  have hg : (Graph.empty.after [.addClaim "z" .plain] : Graph Float32).Reachable := ⟨_, rfl⟩
  obtain ⟨-, hrefused, -, hunchanged⟩ := repeats_refused hg twice
  have hrepeated : Repeated twice.relations twice.relations[0] twice.relations[2] := ⟨by decide, rfl⟩
  obtain ⟨e, hload⟩ := hrefused _ _ hrepeated (by decide) (by decide)
  exact ⟨hg, _, _, e, hrepeated, by decide, by decide, hload, hunchanged e hload⟩

/-- A relation without sources, which takes no name. -/
def silent : RelationEntry := ⟨.number 5, [], ⟨"claim", .number 1⟩, none, false⟩

def spoken : RelationEntry := ⟨.number 5, [⟨"claim", .number 2⟩], ⟨"claim", .number 1⟩, none, false⟩

def ofPair (first second : RelationEntry) : Payload := ⟨twice.claims, [first, second]⟩

/-- A name that comes twice is not seen if its first entry has no sources, and is seen the other way round. -/
theorem exists_repeat_loaded : Repeated (ofPair silent spoken).relations silent spoken ∧
    (∃ result, (ofPair silent spoken).load (Graph.empty : Graph Float32) = .ok result) ∧
    (ofPair spoken silent).load (Graph.empty : Graph Float32) = .error (.duplicateRelation (.number 5)) := by
  have hload : ((ofPair silent spoken).load (Graph.empty : Graph Float32)).map (·.1.relations.keys) =
      .ok [.number 5] := by decide +kernel
  have hrefused : ((ofPair spoken silent).load (Graph.empty : Graph Float32)).map (·.1.relations.keys) =
      .error (.duplicateRelation (.number 5)) := by decide +kernel
  obtain ⟨result, hload, -⟩ := Outcome.map_eq_ok.1 hload
  exact ⟨⟨.refl _, rfl⟩, ⟨result, hload⟩, Outcome.map_eq_error.1 hrefused⟩

end ArgumentDiagram.Payload
