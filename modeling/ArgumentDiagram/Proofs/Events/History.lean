import ArgumentDiagram.Events.Bus
import Mathlib.Data.List.Nodup

/-!
A bus against its history. The history of a run is what was asked of the bus and what it answered; who is
subscribed to a name is read off the history alone, without the tables of the bus. The bus agrees with its
history after every run that starts with the empty bus.

Main statement: `EventBus.fire_calls_subscribers`, all that firing, unsubscribing and subscribing do after any run.
-/

namespace ArgumentDiagram

/-- What can be asked of a bus. -/
inductive BusOperation (ε : Type) where
  | on (name : String)
  | off (name : String) (id : ListenerId)
  | fire (name : String) (event : ε)

namespace BusOperation

variable {ε : Type}

/-- The name an operation is about. -/
def name : BusOperation ε → String
  | on name => name
  | off name _ => name
  | fire name _ => name

end BusOperation

/-- What was asked of a bus and what it answered. -/
inductive BusEntry (ε : Type) where
  | subscribed (name : String) (id : ListenerId)
  | unsubscribed (name : String) (id : ListenerId) (found : Bool)
  | fired (name : String) (event : ε) (count : Nat)

namespace BusEntry

variable {ε : Type}

/-- The listener that was subscribed. -/
def issued? : BusEntry ε → Option ListenerId
  | subscribed _ id => some id
  | unsubscribed _ _ _ => none
  | fired _ _ _ => none

/-- Says whether this took a listener off a name. -/
def withdraws (name : String) (id : ListenerId) : BusEntry ε → Bool
  | subscribed _ _ => false
  | unsubscribed other taken found => found && other = name && taken = id
  | fired _ _ _ => false

end BusEntry

/-- The listeners that were subscribed to a name and not taken off it since, in order of subscription. -/
def subscribers {ε : Type} (name : String) : List (BusEntry ε) → List ListenerId
  | [] => []
  | .subscribed other id :: later =>
    if other = name ∧ later.any (BusEntry.withdraws name id) = false then id :: subscribers name later
    else subscribers name later
  | .unsubscribed _ _ _ :: later => subscribers name later
  | .fired _ _ _ :: later => subscribers name later

section Subscribers

variable {ε : Type} (past : List (BusEntry ε)) (name other : String) (id : ListenerId)

/-- What takes no listener off the name and subscribes none to it changes nothing. -/
theorem subscribers_append_of_other {entry : BusEntry ε} (hnew : subscribers name [entry] = [])
    (hkept : ∀ id, entry.withdraws name id = false) :
    subscribers name (past ++ [entry]) = subscribers name past := by
  induction past with
  | nil => exact hnew
  | cons first later ih =>
      cases first with
      | subscribed other id =>
          have hany : (later ++ [entry]).any (BusEntry.withdraws name id) =
              later.any (BusEntry.withdraws name id) := by
            rw [List.any_append, List.any_cons, List.any_nil, hkept, Bool.or_false, Bool.or_false]
          rw [List.cons_append, subscribers, subscribers, ih, hany]
      | unsubscribed other id found => exact ih
      | fired other event count => exact ih

theorem subscribers_append_subscribed :
    subscribers name (past ++ [.subscribed other id]) =
      if other = name then subscribers name past ++ [id] else subscribers name past := by
  by_cases hname : other = name
  · rw [if_pos hname]
    induction past with
    | nil => exact if_pos ⟨hname, rfl⟩
    | cons first later ih =>
        cases first with
        | subscribed before earlier =>
            have hany : (later ++ [BusEntry.subscribed other id]).any (BusEntry.withdraws name earlier) =
                later.any (BusEntry.withdraws name earlier) := by
              rw [List.any_append, List.any_cons, List.any_nil]
              exact Bool.or_false _
            rw [List.cons_append, subscribers, subscribers, ih, hany]
            split
            · rfl
            · rfl
        | unsubscribed before earlier found => exact ih
        | fired before event count => exact ih
  · rw [if_neg hname]
    refine subscribers_append_of_other past name ?_ fun _ => rfl
    exact if_neg fun h => hname h.1

theorem subscribers_append_unsubscribed :
    subscribers name (past ++ [.unsubscribed other id true]) =
      if other = name then (subscribers name past).filter (· ≠ id) else subscribers name past := by
  by_cases hname : other = name
  · rw [if_pos hname]
    induction past with
    | nil => rfl
    | cons first later ih =>
        cases first with
        | subscribed before earlier =>
            have hany : (later ++ [BusEntry.unsubscribed other id true]).any (BusEntry.withdraws name earlier) =
                (later.any (BusEntry.withdraws name earlier) || decide (id = earlier)) := by
              rw [List.any_append, List.any_cons, List.any_nil, Bool.or_false]
              simp only [BusEntry.withdraws, hname, decide_true, Bool.true_and]
            rw [List.cons_append, subscribers, subscribers, ih, hany]
            -- the listener is kept if it was there before and is not the one taken off
            by_cases hsame : id = earlier
            · have hgone : ¬(before = name ∧
                  (later.any (BusEntry.withdraws name earlier) || decide (id = earlier)) = false) := by
                simp [hsame]
              rw [if_neg hgone]
              split
              · simp [hsame]
              · rfl
            · rw [decide_eq_false hsame, Bool.or_false]
              split
              · rw [List.filter_cons, if_pos (decide_eq_true (Ne.symm hsame))]
              · rfl
        | unsubscribed before earlier found => exact ih
        | fired before event count => exact ih
  · rw [if_neg hname]
    refine subscribers_append_of_other past name rfl fun taken => ?_
    simp [BusEntry.withdraws, hname]

end Subscribers

namespace EventBus

variable {ε : Type}

/-- What an operation answers, and the bus it leaves. -/
def perform (bus : EventBus ε) : BusOperation ε → BusEntry ε × EventBus ε
  | .on name => ((.subscribed name (bus.on name).1), (bus.on name).2)
  | .off name id => ((.unsubscribed name id (bus.off name id).1), (bus.off name id).2)
  | .fire name event => ((.fired name event (bus.fire name event).1), (bus.fire name event).2)

/-- The bus after some operations, one after the other. -/
def after (bus : EventBus ε) (operations : List (BusOperation ε)) : EventBus ε :=
  operations.foldl (fun bus operation => (bus.perform operation).2) bus

/-- What was asked and answered on the way, oldest first. -/
def history (bus : EventBus ε) : List (BusOperation ε) → List (BusEntry ε)
  | [] => []
  | operation :: rest => (bus.perform operation).1 :: history (bus.perform operation).2 rest

variable (bus : EventBus ε)

theorem lookup_setListeners (name other : String) (ids : List ListenerId)
    (listeners : List (String × List ListenerId)) :
    (setListeners name ids listeners).lookup other =
      if other = name then some ids else listeners.lookup other := by
  induction listeners with
  | nil =>
      rw [setListeners, List.lookup_cons]
      by_cases h : other = name
      · rw [if_pos h, beq_iff_eq.2 h]
      · rw [if_neg h, beq_false_of_ne h]
  | cons entry rest ih =>
      obtain ⟨first, old⟩ := entry
      rw [setListeners]
      by_cases hfirst : first = name
      · rw [if_pos hfirst, List.lookup_cons, List.lookup_cons, hfirst]
        by_cases h : other = name
        · rw [if_pos h, beq_iff_eq.2 h]
        · rw [if_neg h, beq_false_of_ne h]
      · rw [if_neg hfirst, List.lookup_cons, List.lookup_cons, ih]
        by_cases h : other = first
        · rw [beq_iff_eq.2 h]
          exact (if_neg fun hname => hfirst (h.symm.trans hname)).symm
        · rw [beq_false_of_ne h]

theorem listenersOf_on (name other : String) :
    (bus.on name).2.listenersOf other =
      if other = name then bus.listenersOf other ++ [⟨bus.nextId⟩] else bus.listenersOf other := by
  show ((setListeners name _ bus.listeners).lookup other).getD [] = _
  rw [lookup_setListeners]
  by_cases h : other = name
  · rw [if_pos h, if_pos h, h]
    rfl
  · rw [if_neg h, if_neg h]
    rfl

theorem off_of_mem {name : String} {id : ListenerId} (h : id ∈ bus.listenersOf name) :
    bus.off name id = (true, { bus with
      listeners := setListeners name ((bus.listenersOf name).filter (· ≠ id)) bus.listeners }) := if_pos h

theorem off_of_not_mem {name : String} {id : ListenerId} (h : id ∉ bus.listenersOf name) :
    bus.off name id = (false, bus) := if_neg h

theorem off_eq_true_iff (name : String) (id : ListenerId) :
    (bus.off name id).1 = true ↔ id ∈ bus.listenersOf name := by
  by_cases h : id ∈ bus.listenersOf name
  · rw [off_of_mem bus h]
    exact iff_of_true rfl h
  · rw [off_of_not_mem bus h]
    exact iff_of_false Bool.false_ne_true h

theorem listenersOf_off (name other : String) (id : ListenerId) :
    (bus.off name id).2.listenersOf other =
      if other = name then (bus.listenersOf other).filter (· ≠ id) else bus.listenersOf other := by
  by_cases hmem : id ∈ bus.listenersOf name
  · rw [off_of_mem bus hmem]
    show ((setListeners name _ bus.listeners).lookup other).getD [] = _
    rw [lookup_setListeners]
    by_cases h : other = name
    · rw [if_pos h, if_pos h, h]
      rfl
    · rw [if_neg h, if_neg h]
      rfl
  · rw [off_of_not_mem bus hmem]
    split
    · rename_i h
      have hkept : ∀ listener ∈ bus.listenersOf other, decide (listener ≠ id) = true := by
        intro listener hlistener
        refine decide_eq_true fun heq => hmem ?_
        rwa [← heq, ← h]
      exact (List.filter_eq_self.2 hkept).symm
    · rfl

theorem nextId_off (name : String) (id : ListenerId) : (bus.off name id).2.nextId = bus.nextId := by
  by_cases h : id ∈ bus.listenersOf name
  · rw [off_of_mem bus h]
  · rw [off_of_not_mem bus h]

theorem calls_off (name : String) (id : ListenerId) : (bus.off name id).2.calls = bus.calls := by
  by_cases h : id ∈ bus.listenersOf name
  · rw [off_of_mem bus h]
  · rw [off_of_not_mem bus h]

/-- An operation changes the listeners of its own name only. -/
theorem listenersOf_perform_of_ne {operation : BusOperation ε} {name : String} (h : operation.name ≠ name) :
    (bus.perform operation).2.listenersOf name = bus.listenersOf name := by
  cases operation with
  | on other => exact (listenersOf_on bus other name).trans (if_neg (Ne.symm h))
  | off other id => exact (listenersOf_off bus other name id).trans (if_neg (Ne.symm h))
  | fire other event => rfl

/-- Operations under other names leave the listeners of a name. -/
theorem listenersOf_after_of_ne {operations : List (BusOperation ε)} {name : String}
    (h : ∀ operation ∈ operations, operation.name ≠ name) :
    (bus.after operations).listenersOf name = bus.listenersOf name := by
  induction operations generalizing bus with
  | nil => rfl
  | cons operation rest ih =>
      obtain ⟨hfirst, hrest⟩ := List.forall_mem_cons.1 h
      exact (ih _ hrest).trans (bus.listenersOf_perform_of_ne hfirst)

/-! ### The bus and its history -/

/-- A bus has the listeners that its history says it has, and gave out its listeners' numbers in order. -/
structure Agrees (bus : EventBus ε) (past : List (BusEntry ε)) : Prop where
  listenersOf_eq : ∀ name, bus.listenersOf name = subscribers name past
  issued_eq : past.filterMap BusEntry.issued? = (List.range bus.nextId).map ListenerId.mk

namespace Agrees

variable {bus} {past : List (BusEntry ε)}

theorem empty : (EventBus.empty : EventBus ε).Agrees [] := ⟨fun _ => rfl, rfl⟩

theorem perform (h : bus.Agrees past) (operation : BusOperation ε) :
    (bus.perform operation).2.Agrees (past ++ [(bus.perform operation).1]) := by
  cases operation with
  | on name =>
      refine ⟨fun other => ?_, ?_⟩
      · calc (bus.on name).2.listenersOf other
            = if other = name then subscribers other past ++ [⟨bus.nextId⟩] else subscribers other past := by
              rw [listenersOf_on, h.listenersOf_eq]
          _ = subscribers other (past ++ [.subscribed name ⟨bus.nextId⟩]) := by
              simp only [subscribers_append_subscribed, eq_comm]
      · calc (past ++ [BusEntry.subscribed name ⟨bus.nextId⟩]).filterMap BusEntry.issued?
            = (List.range bus.nextId).map ListenerId.mk ++ [⟨bus.nextId⟩] := by
              rw [List.filterMap_append, h.issued_eq]
              rfl
          _ = (List.range (bus.nextId + 1)).map ListenerId.mk := by
              rw [List.range_succ, List.map_append, List.map_singleton]
  | off name id =>
      refine ⟨fun other => ?_, ?_⟩
      · show (bus.off name id).2.listenersOf other = _
        by_cases hmem : id ∈ bus.listenersOf name
        · rw [listenersOf_off, h.listenersOf_eq]
          show _ = subscribers other (past ++ [.unsubscribed name id (bus.off name id).1])
          rw [(off_eq_true_iff bus name id).2 hmem, subscribers_append_unsubscribed]
          simp only [eq_comm]
        · show _ = subscribers other (past ++ [.unsubscribed name id (bus.off name id).1])
          rw [off_of_not_mem bus hmem, subscribers_append_of_other past other rfl fun _ => rfl]
          exact h.listenersOf_eq other
      · show (past ++ [BusEntry.unsubscribed name id _]).filterMap BusEntry.issued? = _
        rw [List.filterMap_append, h.issued_eq]
        show _ ++ [] = (List.range (bus.off name id).2.nextId).map ListenerId.mk
        rw [nextId_off, List.append_nil]
  | fire name event =>
      refine ⟨fun other => ?_, ?_⟩
      · show bus.listenersOf other = subscribers other (past ++ [.fired name event _])
        rw [subscribers_append_of_other past other rfl fun _ => rfl]
        exact h.listenersOf_eq other
      · show (past ++ [BusEntry.fired name event _]).filterMap BusEntry.issued? = _
        rw [List.filterMap_append, h.issued_eq]
        exact List.append_nil _

theorem after (h : bus.Agrees past) (operations : List (BusOperation ε)) :
    (bus.after operations).Agrees (past ++ bus.history operations) := by
  induction operations generalizing bus past with
  | nil => rwa [history, List.append_nil]
  | cons operation rest ih =>
      have hrest := ih (h.perform operation)
      rwa [List.append_assoc] at hrest

theorem nodup_issued (h : bus.Agrees past) : (past.filterMap BusEntry.issued?).Nodup := by
  rw [h.issued_eq]
  exact List.nodup_range.map fun _ _ heq => congrArg ListenerId.index heq

end Agrees

/-- Who is subscribed to a name was issued before, each once and in that order. -/
theorem subscribers_sublist_issued (name : String) (past : List (BusEntry ε)) :
    (subscribers name past).Sublist (past.filterMap BusEntry.issued?) := by
  induction past with
  | nil => exact List.Sublist.refl []
  | cons first later ih =>
      cases first with
      | subscribed other id =>
          rw [subscribers]
          split
          · exact ih.cons_cons id
          · exact ih.cons id
      | unsubscribed other id found => exact ih
      | fired other event count => exact ih

/-- After any run, firing calls those subscribed to the name by the history of the run, in order of subscription
and each once; a listener is taken off a name exactly if it is subscribed there, and nobody else is; no listener
is issued twice; and operations under other names change nothing in what firing does. -/
theorem fire_calls_subscribers (before : List (BusOperation ε)) :
    let bus := (empty : EventBus ε).after before
    let past := (empty : EventBus ε).history before
    (past.filterMap BusEntry.issued?).Nodup ∧
      ∀ name, (subscribers name past).Nodup ∧
        (bus.on name).1 ∉ past.filterMap BusEntry.issued? ∧
        (∀ event, bus.fire name event =
          (bus.listenerCount name,
            { bus with calls := bus.calls ++ (subscribers name past).map (·, event) })) ∧
        bus.listenerCount name = (subscribers name past).length ∧
        (∀ id, ((bus.off name id).1 = true ↔ id ∈ subscribers name past) ∧
          (bus.off name id).2.calls = bus.calls ∧
          ∀ other, (bus.off name id).2.listenersOf other =
            if other = name then (subscribers other past).erase id else subscribers other past) ∧
        ∀ between : List (BusOperation ε), (∀ operation ∈ between, operation.name ≠ name) →
          ∀ event, ((bus.after between).fire name event).1 = (bus.fire name event).1 ∧
            ((bus.after between).fire name event).2.calls =
              (bus.after between).calls ++ (subscribers name past).map (·, event) := by
  intro bus past
  have hagrees : bus.Agrees past := Agrees.empty.after before
  have hissued := hagrees.nodup_issued
  refine ⟨hissued, fun name => ?_⟩
  have hnodup : ∀ other, (subscribers other past).Nodup := fun other =>
    (subscribers_sublist_issued other past).nodup hissued
  refine ⟨hnodup name, ?_, fun event => ?_, ?_, fun id => ⟨?_, calls_off bus name id, fun other => ?_⟩, ?_⟩
  · show (⟨bus.nextId⟩ : ListenerId) ∉ past.filterMap BusEntry.issued?
    rw [hagrees.issued_eq]
    intro hmem
    obtain ⟨n, hn, heq⟩ := List.mem_map.1 hmem
    exact absurd (congrArg ListenerId.index heq) (Nat.ne_of_lt (List.mem_range.1 hn))
  · rw [← hagrees.listenersOf_eq name]
    rfl
  · rw [← hagrees.listenersOf_eq name]
    rfl
  · rw [← hagrees.listenersOf_eq name]
    exact off_eq_true_iff bus name id
  · have hfilter : (subscribers other past).erase id = (subscribers other past).filter (· ≠ id) := by
      rw [(hnodup other).erase_eq_filter id]
      exact List.filter_congr fun _ _ => decide_not.symm
    rw [listenersOf_off, hagrees.listenersOf_eq other, hfilter]
  · intro between hbetween event
    have hsame := bus.listenersOf_after_of_ne hbetween
    refine ⟨congrArg List.length hsame, ?_⟩
    show (bus.after between).calls ++ ((bus.after between).listenersOf name).map (·, event) = _
    rw [hsame, hagrees.listenersOf_eq name]

/-- After a subscription under one name, what is done under another name changes nothing for it: the only
listener is called, once. -/
theorem fire_calls_subscribers_of_other_name :
    let bus := (empty : EventBus Unit).after [.on "drop"]
    let between : List (BusOperation Unit) := [.on "draw", .off "draw" ⟨0⟩]
    (∀ operation ∈ between, operation.name ≠ "drop") ∧
      ((bus.after between).fire "drop" ()).2.calls = (bus.after between).calls ++ [(⟨0⟩, ())] := by
  have hother : ∀ operation ∈ ([.on "draw", .off "draw" ⟨0⟩] : List (BusOperation Unit)),
      operation.name ≠ "drop" := by decide +kernel
  obtain ⟨-, hnames⟩ := fire_calls_subscribers ([.on "drop"] : List (BusOperation Unit))
  obtain ⟨-, -, -, -, -, hbetween⟩ := hnames "drop"
  exact ⟨hother, (hbetween _ hother ()).2⟩

end EventBus

end ArgumentDiagram
