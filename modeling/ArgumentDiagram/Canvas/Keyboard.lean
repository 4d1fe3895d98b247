import ArgumentDiagram.Canvas.Basic

/-!
Working on the selection by keys: deleting it, moving it, and going from claim to claim.
-/

namespace ArgumentDiagram

inductive Key where
  | delete
  | backspace
  | tab
  | arrowUp
  | arrowDown
  | arrowLeft
  | arrowRight
  | other
deriving DecidableEq

namespace Canvas

variable {α : Type}

def deleteSelection (c : Canvas α) : Canvas α :=
  (c.selected.foldl (fun c id => (c.delete (.claim id)).2) c).update

/-- The position of the first selected claim among all claims, or `-1`. -/
def selectedIndex (c : Canvas α) (ids : List ClaimId) : Int :=
  match c.selected.head? with
  | none => -1
  | some first =>
    match ids.findIdx? (· = first) with
    | none => -1
    | some i => i

/-- Where the selection goes from a position, if it does not end there. Steps go around. -/
def nextIndex (count : Nat) (index : Int) (backwards : Bool) : Option Nat :=
  if index < count - 1 then
    some ((count + index + (if backwards then -1 else 1)) % count).toNat
  else none

/-- Selects the next claim, or none after the last one. -/
def selectNext (c : Canvas α) (backwards : Bool) : Canvas α :=
  let ids := c.graph.claimIds
  let next := (nextIndex ids.length (c.selectedIndex ids) backwards).bind (ids[·]?)
  { c with selected := next.toList }.update

variable [Scalar α]

/-- Moves the selected claims. -/
def nudge (c : Canvas α) (dx dy : α) : Canvas α :=
  { c with graph := c.graph.updateClaims c.selected (·.moveBy dx dy) }.update

/-- How far an arrow key moves the selection. -/
def keyStep (c : Canvas α) : α := 2.0 * c.style.scale

/-- Handles a key, and says whether it did. -/
def keyDown (c : Canvas α) (key : Key) (shift : Bool) : Bool × Canvas α :=
  let step := c.keyStep
  match key with
  | .delete | .backspace => (true, c.deleteSelection)
  | .tab => if c.graph.claimIds.isEmpty then (false, c) else (true, c.selectNext shift)
  | .arrowUp => (true, c.nudge 0.0 (-step))
  | .arrowDown => (true, c.nudge 0.0 step)
  | .arrowLeft => (true, c.nudge (-step) 0.0)
  | .arrowRight => (true, c.nudge step 0.0)
  | .other => (false, c)

end Canvas

end ArgumentDiagram
