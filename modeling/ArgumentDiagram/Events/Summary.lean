import ArgumentDiagram.Events.Bus
import ArgumentDiagram.Text.Quoted

/-!
A one-line account of a bus.
-/

namespace ArgumentDiagram.EventBus

variable {ε : Type}

/-- Every name ever subscribed to with its number of listeners. -/
def summary (bus : EventBus ε) : String :=
  let entries := bus.census.map fun (name, n) =>
    "(" ++ Text.Quoted.quote name ++ ", " ++ toString n ++ ")"
  "EventBus \x7b listeners: [" ++ ", ".intercalate entries ++ "] \x7d"

end ArgumentDiagram.EventBus
