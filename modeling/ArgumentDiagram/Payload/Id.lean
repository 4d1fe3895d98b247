import ArgumentDiagram.Table.Order

/-!
Names that claims and relations have inside a payload: numbers, or texts, which come after all numbers.
-/

namespace ArgumentDiagram

inductive PayloadId where
  | number (n : Int)
  | text (s : String)
deriving DecidableEq

namespace PayloadId

def describe : PayloadId → String
  | .number n => toString n
  | .text s => s

def before : PayloadId → PayloadId → Bool
  | .number m, .number n => KeyOrder.before m n
  | .number _, .text _ => true
  | .text _, .number _ => false
  | .text s, .text t => KeyOrder.before s t

instance : KeyOrder PayloadId where
  before := before
  irrefl a := by cases a <;> exact KeyOrder.irrefl _
  trans {a b c} h h' := by
    cases a <;> cases b <;> cases c <;> simp only [before, Bool.false_eq_true] at h h' ⊢
    · exact KeyOrder.trans h h'
    · exact KeyOrder.trans h h'
  connected {a b} h hne := by
    cases a <;> cases b <;> simp only [before, Bool.true_eq_false] at h ⊢
    · exact KeyOrder.connected h fun heq => hne (heq ▸ rfl)
    · exact KeyOrder.connected h fun heq => hne (heq ▸ rfl)

end PayloadId

end ArgumentDiagram
