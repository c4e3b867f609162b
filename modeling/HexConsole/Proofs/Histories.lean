import HexConsole.Machine.History
import Mathlib.Data.List.Forall2

/-! # Histories

A machine lives through a history event by event, so a history can be cut anywhere. What is
asked of a history is asked of each of its events at the machine that meets it. Two machines
that meet like events with like answers live through like histories.
-/

namespace HexConsole.Machine

/-- The answer of a tick with which the sound timer ran out. -/
def Answer.isBeep : Answer → Bool
  | ticked beep => beep
  | stepped _ | noted => false

/-- The result in the answer to a step. -/
def Answer.result? : Answer → Option (Except Fault Unit)
  | stepped result => some result
  | ticked _ | noted => none

/-- How often the sound timer runs out during a history. -/
def beeps (m : Machine) (events : List Event) : Nat :=
  (m.answers events).countP Answer.isBeep

/-- The results of the steps of a history. -/
def results (m : Machine) (events : List Event) : List (Except Fault Unit) :=
  (m.answers events).filterMap Answer.result?

/-- Something holds of every event of a history and the machine that meets it. -/
def Throughout (m : Machine) (holds : Machine → Event → Prop) : List Event → Prop
  | [] => True
  | event :: events => holds m event ∧ (m.react event).2.Throughout holds events

variable {m : Machine} {holds : Machine → Event → Prop} {events : List Event}

theorem answers_cons (m : Machine) (event : Event) (events : List Event) :
    m.answers (event :: events) = (m.react event).1 :: (m.react event).2.answers events := rfl

theorem after_cons (m : Machine) (event : Event) (events : List Event) :
    m.after (event :: events) = (m.react event).2.after events := rfl

theorem after_append (m : Machine) (events events' : List Event) :
    m.after (events ++ events') = (m.after events).after events' :=
  List.foldl_append ..

theorem answers_append (m : Machine) (events events' : List Event) :
    m.answers (events ++ events') = m.answers events ++ (m.after events).answers events' := by
  induction events generalizing m with
  | nil => rfl
  | cons event events ih =>
    rw [List.cons_append, answers_cons, answers_cons, ih, List.cons_append]
    rfl

theorem after_concat (m : Machine) (events : List Event) (event : Event) :
    m.after (events ++ [event]) = ((m.after events).react event).2 :=
  after_append m events [event]

theorem beeps_cons (m : Machine) (event : Event) (events : List Event) :
    m.beeps (event :: events) =
      (m.react event).2.beeps events + if (m.react event).1.isBeep then 1 else 0 := by
  rw [beeps, answers_cons, List.countP_cons]
  rfl

theorem results_cons (m : Machine) (event : Event) (events : List Event) :
    m.results (event :: events) =
      (m.react event).1.result?.toList ++ (m.react event).2.results events := by
  rw [results, answers_cons, List.filterMap_cons]
  cases (m.react event).1.result? <;> rfl

theorem results_step (m : Machine) (byte : UInt8) :
    m.results [.step byte] = [(m.step byte).1] := by
  rw [results_cons]
  rfl

theorem throughout_append {events' : List Event} :
    m.Throughout holds (events ++ events') ↔
      m.Throughout holds events ∧ (m.after events).Throughout holds events' := by
  induction events generalizing m with
  | nil => exact (iff_of_eq (true_and _)).symm
  | cons event events ih =>
    rw [List.cons_append, Throughout, ih, ← and_assoc]
    rfl

theorem Throughout.imp {holds' : Machine → Event → Prop}
    (hi : ∀ m event, holds m event → holds' m event) (h : m.Throughout holds events) :
    m.Throughout holds' events := by
  induction events generalizing m with
  | nil => trivial
  | cons event events ih => exact ⟨hi m event h.1, ih h.2⟩

/-- Two machines that are alike stay alike, if no two like events tell them apart. -/
theorem forall₂_answers {alike : Machine → Machine → Prop} {same : Event → Event → Prop}
    {agree : Answer → Answer → Prop}
    (hr : ∀ m m' event event', alike m m' → same event event' →
      agree (m.react event).1 (m'.react event').1 ∧ alike (m.react event).2 (m'.react event').2)
    {m m' : Machine} (h : alike m m') {events events' : List Event}
    (he : List.Forall₂ same events events') :
    List.Forall₂ agree (m.answers events) (m'.answers events') ∧
      alike (m.after events) (m'.after events') := by
  induction he generalizing m m' with
  | nil => exact ⟨.nil, h⟩
  | cons he _ ih =>
    obtain ⟨ha, hm⟩ := hr _ _ _ _ h he
    obtain ⟨has, hms⟩ := ih hm
    exact ⟨.cons ha has, hms⟩

end HexConsole.Machine
