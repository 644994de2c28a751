import Runbook.Trace

/-!
This module contains what a trace keeps: of all events that it was told, the newest ones, as many as
it has room for. The events that it does not keep are counted, and its lines say how many they are.
-/

namespace Runbook.Trace

/-- Adds events one after another. -/
def pushAll (trace : Trace) (events : List Event) : Trace :=
  events.foldl push trace

/-- A trace that has room for an event and does not hold more than it has room for. -/
structure HasRoom (trace : Trace) : Prop where
  pos : 0 < trace.capacity
  le : trace.events.length ≤ trace.capacity

def newest (capacity : Nat) (events : List Event) : List Event :=
  events.drop (events.length - capacity)

theorem newest_of_le {capacity : Nat} {events : List Event} (h : events.length ≤ capacity)
    : newest capacity events = events := by
  unfold newest
  rw [Nat.sub_eq_zero_of_le h]
  rfl

theorem newest_append (capacity : Nat) (events more : List Event)
    : newest capacity (newest capacity events ++ more) = newest capacity (events ++ more) := by
  unfold newest
  rw [← List.drop_append_of_le_length (Nat.sub_le ..), List.drop_drop]
  congr 1
  rw [List.length_drop, List.length_append]
  omega

@[simp]
theorem push_capacity (trace : Trace) (event : Event)
    : (trace.push event).capacity = trace.capacity := by
  unfold push
  split <;> rfl

variable {trace : Trace}

theorem HasRoom.push_events (h : trace.HasRoom) (event : Event)
    : (trace.push event).events = newest trace.capacity (trace.events ++ [event]) := by
  have hpos := h.pos
  have hle := h.le
  unfold push newest
  rw [List.length_append, List.length_singleton]
  split
  . next hfull =>
    have hone : trace.events.length + 1 - trace.capacity = 1 := by omega
    rw [hone, List.drop_append_of_le_length (by omega)]
  . next hroom =>
    have hnone : trace.events.length + 1 - trace.capacity = 0 := by omega
    rw [hnone]
    rfl

theorem HasRoom.push_count (h : trace.HasRoom) (event : Event)
    : (trace.push event).events.length + (trace.push event).dropped
        =
      trace.events.length + trace.dropped + 1 := by
  have hpos := h.pos
  unfold push
  split
  . next hfull =>
    dsimp only
    rw [List.length_append, List.length_drop, List.length_singleton]
    omega
  . dsimp only
    rw [List.length_append, List.length_singleton]
    omega

theorem HasRoom.push (h : trace.HasRoom) (event : Event) : (trace.push event).HasRoom := by
  have hpos := h.pos
  refine ⟨by rw [push_capacity]; exact hpos, ?_⟩
  rw [h.push_events, push_capacity]
  unfold newest
  rw [List.length_drop]
  omega

theorem HasRoom.pushAll_events (h : trace.HasRoom) (events : List Event)
    : (trace.pushAll events).events = newest trace.capacity (trace.events ++ events) := by
  induction events generalizing trace with
  | nil =>
    rw [List.append_nil, newest_of_le h.le]
    rfl
  | cons event rest ih =>
    have hrest := ih (h.push event)
    rw [push_capacity, h.push_events, newest_append] at hrest
    rw [pushAll, List.foldl_cons, ← pushAll, hrest, List.append_assoc]
    rfl

theorem HasRoom.pushAll_count (h : trace.HasRoom) (events : List Event)
    : (trace.pushAll events).events.length + (trace.pushAll events).dropped
        =
      trace.events.length + trace.dropped + events.length := by
  induction events generalizing trace with
  | nil => rfl
  | cons event rest ih =>
    have hrest := ih (h.push event)
    rw [h.push_count] at hrest
    rw [pushAll, List.foldl_cons, ← pushAll, hrest, List.length_cons]
    omega

theorem newest_suffix (capacity : Nat) (events : List Event) : newest capacity events <:+ events :=
  List.drop_suffix _ _

theorem length_newest (capacity : Nat) (events : List Event)
    : (newest capacity events).length = min events.length capacity := by
  unfold newest
  rw [List.length_drop]
  omega

theorem hasRoom_new (capacity : Nat) : (new capacity).HasRoom :=
  ⟨Nat.lt_of_lt_of_le Nat.zero_lt_one (Nat.le_max_left 1 capacity), Nat.zero_le _⟩

theorem pushAll_new_events (capacity : Nat) (events : List Event)
    : ((new capacity).pushAll events).events = newest (max 1 capacity) events :=
  (hasRoom_new capacity).pushAll_events events

/--
A trace is a window on the events that it was told: it ends with the newest of them, and it holds as
many as there is room for. The events before it are counted, and there is a line about them exactly
if there are any.
-/
theorem pushAll_new_window (capacity : Nat) (events : List Event)
    : let trace := (new capacity).pushAll events
      trace.events <:+ events ∧
      trace.events.length = min events.length (max 1 capacity) ∧
      trace.events.length + trace.dropped = events.length ∧
      trace.lines
        =
      (if 0 < trace.dropped then [s!"... {trace.dropped} earlier event(s) dropped"] else []) ++
        trace.events.map Event.line := by
  dsimp only
  refine ⟨?_, ?_, ?_, rfl⟩
  . rw [pushAll_new_events]
    exact newest_suffix _ _
  . rw [pushAll_new_events]
    exact length_newest _ _
  . have hcount := (hasRoom_new capacity).pushAll_count events
    have hnew : (new capacity).events.length + (new capacity).dropped = 0 := rfl
    omega

theorem pushAll_new_append (capacity : Nat) (events : List Event) (last : Event)
    : ∃ earlier,
        earlier ⊆ events ∧
        ((new capacity).pushAll (events ++ [last])).events = earlier ++ [last] := by
  rw [pushAll_new_events]
  unfold newest
  have hlength : (events ++ [last]).length - max 1 capacity ≤ events.length := by
    rw [List.length_append, List.length_singleton]
    omega
  exact ⟨_, List.drop_subset _ _, List.drop_append_of_le_length hlength⟩

end Runbook.Trace
