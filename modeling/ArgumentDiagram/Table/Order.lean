/-!
Keys with a strict total order that can be decided.
-/

namespace ArgumentDiagram

/-- A strict total order on keys. -/
class KeyOrder (κ : Type) [DecidableEq κ] where
  before : κ → κ → Bool
  irrefl : ∀ a, before a a = false
  trans : ∀ {a b c}, before a b = true → before b c = true → before a c = true
  connected : ∀ {a b}, before a b = false → a ≠ b → before b a = true

namespace KeyOrder

variable {κ : Type} [DecidableEq κ] [KeyOrder κ] {a b c : κ}

theorem asymm (h : before a b = true) : before b a = false := by
  rw [← Bool.not_eq_true]
  intro h'
  have hloop := trans h h'
  rw [irrefl] at hloop
  exact Bool.false_ne_true hloop

theorem eq_of_not_before (h : before a b = false) (h' : before b a = false) : a = b := by
  refine Decidable.byContradiction fun hne => ?_
  rw [connected h hne] at h'
  exact Bool.false_ne_true h'.symm

theorem not_before_trans (h : before b a = false) (h' : before c b = false) : before c a = false := by
  by_cases heq : b = a
  · exact heq ▸ h'
  · rw [← Bool.not_eq_true] at h' ⊢
    exact fun hca => h' (trans hca (connected h heq))

end KeyOrder

/-- The order of keys by what they are mapped to. -/
@[reducible]
def KeyOrder.comap {κ ι : Type} [DecidableEq κ] [DecidableEq ι] [KeyOrder ι] (f : κ → ι)
    (injective : ∀ {a b}, f a = f b → a = b) : KeyOrder κ where
  before a b := before (f a) (f b)
  irrefl a := irrefl (f a)
  trans h h' := trans h h'
  connected h hne := connected h fun heq => hne (injective heq)

instance : KeyOrder Nat where
  before a b := a < b
  irrefl a := by simp
  trans h h' := by simp only [decide_eq_true_eq] at *; omega
  connected h h' := by simp only [decide_eq_true_eq, decide_eq_false_iff_not] at *; omega

instance : KeyOrder Int where
  before a b := a < b
  irrefl a := by simp
  trans h h' := by simp only [decide_eq_true_eq] at *; omega
  connected h h' := by simp only [decide_eq_true_eq, decide_eq_false_iff_not] at *; omega

/-- Texts are ordered by code points. -/
instance : KeyOrder String where
  before a b := a < b
  irrefl a := by simp
  trans h h' := by simp only [decide_eq_true_eq] at *; exact String.lt_trans h h'
  connected {a b} h h' := by
    simp only [decide_eq_true_eq, decide_eq_false_iff_not, String.not_lt] at *
    apply Classical.byContradiction
    intro hb
    exact h' (String.le_antisymm (String.not_lt.1 hb) h)

/-- Characters are ordered by code point. -/
instance : KeyOrder Char := .comap Char.toNat Char.toNat_inj.1

end ArgumentDiagram
