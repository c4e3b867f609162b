import HexConsole.Machine.History
import HexConsole.Schedule.Timelines

/-! # Deeds

A run does not have the machine to itself. Between two actions somebody outside may get it,
leave it in some other state, and leave its lock poisoned or not. So a run meets a row of
deeds, which are actions and visits. The presentation is lent to the run, and nobody else calls
it until the run has returned; what it shows and reports is its own affair, and nothing is
assumed of it.

An action is at most one event for the machine and at most one call of the presentation.
-/

namespace HexConsole

open Presentation

/-- An action of a run, or a visit from outside, after which the machine and its lock are in
some other state. -/
inductive Deed where
  | act (action : Action)
  | visit (machine : Machine) (poisoned : Bool)

/-- Somebody outside gets the machine. -/
def Deed.IsVisit : Deed → Prop
  | act _ => False
  | visit .. => True

/-- Whoever gets the machine from outside leaves its lock poisoned, or not, as it says here. -/
def Deed.Leaves (poisoned : Bool) : Deed → Prop
  | act _ => True
  | visit _ left => left = poisoned

theorem Deed.leaves_of_not_isVisit {deed : Deed} {poisoned : Bool} (h : ¬deed.IsVisit) :
    deed.Leaves poisoned := by
  cases deed with
  | act => trivial
  | visit => exact absurd trivial h

/-- A console after a deed if that is a visit; an action is none. -/
def Console.visited (c : Console) : Deed → Console
  | .act _ => c
  | .visit machine poisoned => { c with machine, poisoned }

/-- A console after the visits in a row of deeds. -/
def Console.afterVisits (c : Console) (deeds : List Deed) : Console := deeds.foldl visited c

namespace Timelines

variable {P : Type} [Presentation P]

/-- The timelines after a deed. -/
def meet (t : Timelines P) : Deed → Timelines P
  | .act action => (t.act action).2
  | .visit machine poisoned => { t with console := t.console.visited (.visit machine poisoned) }

/-- The timelines after a row of deeds. -/
def afterDeeds (t : Timelines P) (deeds : List Deed) : Timelines P := deeds.foldl meet t

theorem afterDeeds_cons (t : Timelines P) (deed : Deed) (deeds : List Deed) :
    t.afterDeeds (deed :: deeds) = (t.meet deed).afterDeeds deeds := rfl

theorem afterDeeds_append (t : Timelines P) (deeds deeds' : List Deed) :
    t.afterDeeds (deeds ++ deeds') = (t.afterDeeds deeds).afterDeeds deeds' :=
  List.foldl_append ..

theorem afterDeeds_act (t : Timelines P) (actions : List Action) :
    t.afterDeeds (actions.map .act) = t.afterActs actions :=
  List.foldl_map ..

/-- What an action is for the machine, if it gets the machine: a step, a tick or a key. -/
def event? (t : Timelines P) : Deed → Option Machine.Event
  | .act (.cpu byte) =>
    match t.cpu with
    | .stepping => if t.console.poisoned then none else some (.step byte)
    | _ => none
  | .act .timers =>
    match t.timers with
    | .ticking => if t.console.poisoned then none else some .tick
    | _ => none
  | .act .display =>
    match t.display with
    | .exchanging key => if t.console.poisoned then none else some (.key key)
    | _ => none
  | .act .stop | .visit .. => none

/-- What an action is for the presentation, if it calls it. -/
def call? (t : Timelines P) : Deed → Option Call
  | .act .display =>
    match t.display with
    | .polling => some .poll
    | .rendering frame => some (.render frame)
    | .beeping => some .beep
    | _ => none
  | .act (.cpu _) | .act .timers | .act .stop | .visit .. => none

/-- The events of the machine in a row of deeds. -/
def events (t : Timelines P) : List Deed → List Machine.Event
  | [] => []
  | deed :: deeds => (t.event? deed).toList ++ (t.meet deed).events deeds

/-- The calls of the presentation in a row of deeds. -/
def calls (t : Timelines P) : List Deed → List Call
  | [] => []
  | deed :: deeds => (t.call? deed).toList ++ (t.meet deed).calls deeds

/-- The answers of the machine to the events in a row of deeds. -/
def answers (t : Timelines P) : List Deed → List Machine.Answer
  | [] => []
  | deed :: deeds =>
    t.console.machine.answers (t.event? deed).toList ++ (t.meet deed).answers deeds

end Timelines

end HexConsole
