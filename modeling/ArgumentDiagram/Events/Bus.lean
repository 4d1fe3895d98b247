/-!
Named events. Listeners subscribe to a name and are called, in the order they subscribed, with every event
fired under that name. A bus keeps the record of all calls, so what each listener saw can be read off.
-/

namespace ArgumentDiagram

structure ListenerId where
  index : Nat
deriving DecidableEq

structure EventBus (ε : Type) where
  /-- The listeners of each name that was ever subscribed to, in order of subscription. -/
  listeners : List (String × List ListenerId)
  nextId : Nat
  /-- All calls so far, oldest first. -/
  calls : List (ListenerId × ε)

namespace EventBus

variable {ε : Type}

def empty : EventBus ε := ⟨[], 0, []⟩

/-- The listeners of a name, in order of subscription. -/
def listenersOf (bus : EventBus ε) (name : String) : List ListenerId :=
  (bus.listeners.lookup name).getD []

/-- Replaces the listeners of a name, which is added if it is new. -/
def setListeners (name : String) (ids : List ListenerId) :
    List (String × List ListenerId) → List (String × List ListenerId)
  | [] => [(name, ids)]
  | (other, old) :: rest =>
    if other = name then (name, ids) :: rest else (other, old) :: setListeners name ids rest

/-- Subscribes a new listener. -/
def on (bus : EventBus ε) (name : String) : ListenerId × EventBus ε :=
  let id := ⟨bus.nextId⟩
  (id, { bus with
    listeners := setListeners name (bus.listenersOf name ++ [id]) bus.listeners
    nextId := bus.nextId + 1 })

/-- Unsubscribes a listener from a name and says whether it was subscribed there. -/
def off (bus : EventBus ε) (name : String) (id : ListenerId) : Bool × EventBus ε :=
  let ids := bus.listenersOf name
  if id ∈ ids then
    (true, { bus with listeners := setListeners name (ids.filter (· ≠ id)) bus.listeners })
  else (false, bus)

/-- Calls every listener of a name and says how many there were. -/
def fire (bus : EventBus ε) (name : String) (event : ε) : Nat × EventBus ε :=
  let ids := bus.listenersOf name
  (ids.length, { bus with calls := bus.calls ++ ids.map (·, event) })

def listenerCount (bus : EventBus ε) (name : String) : Nat := (bus.listenersOf name).length

/-- Every name with its number of listeners, by name. -/
def census (bus : EventBus ε) : List (String × Nat) :=
  (bus.listeners.map fun (name, ids) => (name, ids.length)).mergeSort (fun a b => a.1 ≤ b.1)

end EventBus

end ArgumentDiagram
