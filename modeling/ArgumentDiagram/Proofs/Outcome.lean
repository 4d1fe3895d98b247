import Mathlib.Data.List.Forall2

/-!
Outcomes of computations that can be refused: a chain of them, or one for each member of a list, goes
through exactly if all of them do, and is refused by the first that is.
-/

namespace ArgumentDiagram.Outcome

variable {ε β γ : Type}

theorem bind_eq_ok {first : Except ε β} {next : β → Except ε γ} {c : γ} :
    first >>= next = .ok c ↔ ∃ b, first = .ok b ∧ next b = .ok c := by
  cases first <;> simp [bind, Except.bind]

theorem map_eq_ok {first : Except ε β} {f : β → γ} {c : γ} :
    first.map f = .ok c ↔ ∃ b, first = .ok b ∧ f b = c := by
  cases first <;> simp [Except.map]

theorem map_eq_error {first : Except ε β} {f : β → γ} {e : ε} : first.map f = .error e ↔ first = .error e := by
  cases first <;> simp [Except.map]

theorem mapError_eq_ok {ε' : Type} {first : Except ε β} {f : ε → ε'} {b : β} :
    first.mapError f = .ok b ↔ first = .ok b := by
  cases first <;> simp [Except.mapError]

theorem toOption_eq_some {first : Except ε β} {b : β} : first.toOption = some b ↔ first = .ok b := by
  cases first <;> simp [Except.toOption]

theorem bind_eq_error {first : Except ε β} {next : β → Except ε γ} {e : ε} :
    first >>= next = .error e ↔ first = .error e ∨ ∃ b, first = .ok b ∧ next b = .error e := by
  cases first <;> simp [bind, Except.bind]

theorem mapM_eq_ok {f : β → Except ε γ} {items : List β} {results : List γ} :
    items.mapM f = .ok results ↔ List.Forall₂ (fun b c => f b = .ok c) items results := by
  induction items generalizing results with
  | nil => simp [pure, Except.pure, eq_comm]
  | cons item rest ih =>
      simp only [List.mapM_cons, bind_eq_ok, ih, List.forall₂_cons_left_iff]
      constructor
      · rintro ⟨c, hc, cs, hcs, hresults⟩
        exact ⟨c, cs, hc, hcs, (Except.ok.inj hresults).symm⟩
      · rintro ⟨c, cs, hc, hcs, rfl⟩
        exact ⟨c, hc, cs, hcs, rfl⟩

theorem exists_of_forall₂ {R : β → γ → Prop} {items : List β} {results : List γ}
    (h : List.Forall₂ R items results) {item : β} (hmem : item ∈ items) :
    ∃ result ∈ results, R item result := by
  induction h with
  | nil => simp at hmem
  | cons hfirst hrest ih =>
      rcases List.mem_cons.1 hmem with rfl | hmem
      · exact ⟨_, List.mem_cons_self, hfirst⟩
      · obtain ⟨result, hresult, h⟩ := ih hmem
        exact ⟨result, List.mem_cons_of_mem _ hresult, h⟩

theorem forall₂_comp {δ : Type} {R : β → γ → Prop} {S : γ → δ → Prop} {items : List β} {middle : List γ}
    {results : List δ} (h : List.Forall₂ R items middle) (h' : List.Forall₂ S middle results) :
    List.Forall₂ (fun b d => ∃ c, R b c ∧ S c d) items results := by
  induction h generalizing results with
  | nil => exact List.forall₂_nil_left_iff.1 h' ▸ .nil
  | cons hfirst _ ih =>
      obtain ⟨d, ds, hd, hds, rfl⟩ := List.forall₂_cons_left_iff.1 h'
      exact .cons ⟨_, hfirst, hd⟩ (ih hds)

/-- A list of computations is refused by the first that is. -/
theorem mapM_eq_error {f : β → Except ε γ} {items : List β} {e : ε} : items.mapM f = .error e ↔
    ∃ first item last, items = first ++ item :: last ∧ (∀ other ∈ first, ∃ c, f other = .ok c) ∧
      f item = .error e := by
  induction items with
  | nil => simp [pure, Except.pure]
  | cons item rest ih =>
      simp only [List.mapM_cons, bind_eq_error, ih]
      constructor
      · rintro (h | ⟨c, hc, ⟨first, other, last, rfl, hfirst, h⟩ | ⟨cs, -, h⟩⟩)
        · exact ⟨[], item, rest, rfl, List.forall_mem_nil _, h⟩
        · exact ⟨item :: first, other, last, rfl, List.forall_mem_cons.2 ⟨⟨c, hc⟩, hfirst⟩, h⟩
        · cases h
      · rintro ⟨first, other, last, hitems, hfirst, h⟩
        cases first with
        | nil =>
            obtain ⟨rfl, rfl⟩ := List.cons.inj hitems
            exact .inl h
        | cons head first =>
            obtain ⟨rfl, rfl⟩ := List.cons.inj hitems
            obtain ⟨⟨c, hc⟩, hfirst⟩ := List.forall_mem_cons.1 hfirst
            exact .inr ⟨c, hc, .inl ⟨first, other, last, rfl, hfirst, h⟩⟩

theorem forM_eq_map_mapM (f : β → Except ε Unit) (items : List β) :
    items.forM f = (items.mapM f).map fun _ => () := by
  induction items with
  | nil => rfl
  | cons item rest ih =>
      rw [List.mapM_cons]
      change (f item >>= fun _ => rest.forM f) = _
      rw [ih]
      cases f item with
      | error e => rfl
      | ok c => cases rest.mapM f <;> rfl

theorem forM_eq_error {f : β → Except ε Unit} {items : List β} {e : ε} : items.forM f = .error e ↔
    ∃ first item last, items = first ++ item :: last ∧ (∀ other ∈ first, f other = .ok ()) ∧
      f item = .error e := by
  have hunit : ∀ other, (∃ c, f other = .ok c) ↔ f other = .ok () :=
    fun other => ⟨fun ⟨(), h⟩ => h, fun h => ⟨(), h⟩⟩
  rw [forM_eq_map_mapM, map_eq_error, mapM_eq_error]
  simp only [hunit]

theorem exists_of_mapM_eq_error {f : β → Except ε γ} {items : List β} {e : ε}
    (h : items.mapM f = .error e) : ∃ item ∈ items, f item = .error e := by
  obtain ⟨first, item, last, rfl, -, hitem⟩ := mapM_eq_error.1 h
  exact ⟨item, by simp, hitem⟩

end ArgumentDiagram.Outcome
