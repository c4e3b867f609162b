import HexConsole.Proofs.Histories
import HexConsole.Proofs.Moves

/-! # Traces of a run

A run leaves a trace in its machine and in its presentation. The presentation is what the calls
of the run have made of it, for nobody else has it. The machine has lived through the events of
the run, and given its answers to them, as long as nobody visits it. What is seen of a run are
these answers and these calls.
-/

namespace HexConsole

open Presentation

/-- The answer of the machine that is seen. -/
def Happening.answer? : Happening → Option Machine.Answer
  | stepped result => some (.stepped result)
  | ticked beep => some (.ticked beep)
  | reported _ => some .noted
  | failed _ | polled _ | rendered _ | beeped => none

/-- The call of the presentation that is seen. -/
def Happening.call? : Happening → Option Call
  | polled _ => some .poll
  | rendered frame => some (.render frame)
  | beeped => some .beep
  | stepped _ | failed _ | ticked _ | reported _ => none

/-- The key that is seen to be polled. -/
def Happening.key? : Happening → Option Key
  | polled key => some key
  | stepped _ | failed _ | ticked _ | reported _ | rendered _ | beeped => none

/-- Only an instruction that is seen to be executed is an answer with a result. -/
theorem Happening.mem_results_iff {happenings : List Happening} {result : Except Fault Unit} :
    result ∈ (happenings.filterMap answer?).filterMap Machine.Answer.result? ↔
      .stepped result ∈ happenings := by
  rw [List.filterMap_filterMap, List.mem_filterMap]
  constructor
  · rintro ⟨seen, hm, hs⟩
    cases seen <;> cases hs
    exact hm
  · intro hm
    exact ⟨_, hm, rfl⟩

namespace Presentation

variable {P : Type} [Presentation P]

/-- The key that a presentation reports in a call. -/
def key? (p : P) : Call → Option Key
  | .poll => some (pollKey p).1
  | .render _ | .beep => none

/-- The keys that a presentation reports in a row of calls. -/
def keys (p : P) : List Call → List Key
  | [] => []
  | c :: calls => (key? p c).toList ++ keys (call p c) calls

theorem after_append (p : P) (calls calls' : List Call) :
    after p (calls ++ calls') = after (after p calls) calls' :=
  List.foldl_append

theorem keys_append (p : P) (calls calls' : List Call) :
    keys p (calls ++ calls') = keys p calls ++ keys (after p calls) calls' := by
  induction calls generalizing p with
  | nil => rfl
  | cons c calls ih =>
    rw [List.cons_append, keys, ih, ← List.append_assoc]
    rfl

end Presentation

namespace Timelines

variable {P : Type} [Presentation P] {t t' : Timelines P} {deed : Deed} {action : Action}
  {deeds : List Deed} {happening : Option Happening}

/-- The results of the instructions that are executed in a row of deeds. -/
def steps (t : Timelines P) (deeds : List Deed) : List (Except Fault Unit) :=
  (t.answers deeds).filterMap Machine.Answer.result?

theorem steps_cons (t : Timelines P) (deed : Deed) (deeds : List Deed) :
    t.steps (deed :: deeds) =
      t.console.machine.results (t.event? deed).toList ++ (t.meet deed).steps deeds :=
  List.filterMap_append

theorem calls_append (t : Timelines P) (deeds deeds' : List Deed) :
    t.calls (deeds ++ deeds') = t.calls deeds ++ (t.afterDeeds deeds).calls deeds' := by
  induction deeds generalizing t with
  | nil => rfl
  | cons deed deeds ih =>
    rw [List.cons_append, calls, ih, ← List.append_assoc]
    rfl

theorem answers_append (t : Timelines P) (deeds deeds' : List Deed) :
    t.answers (deeds ++ deeds') = t.answers deeds ++ (t.afterDeeds deeds).answers deeds' := by
  induction deeds generalizing t with
  | nil => rfl
  | cons deed deeds ih =>
    rw [List.cons_append, answers, ih, ← List.append_assoc]
    rfl

theorem steps_append (t : Timelines P) (deeds deeds' : List Deed) :
    t.steps (deeds ++ deeds') = t.steps deeds ++ (t.afterDeeds deeds).steps deeds' := by
  rw [steps, answers_append, List.filterMap_append]
  rfl

/-- A move that is an event for the machine is seen as the machine's answer, and leaves the
machine as the event does. Another move leaves it alone, unless somebody visits it. -/
theorem Move.event (hm : Move t deed happening t') :
    (∃ event, t.event? deed = some event ∧
      happening.toList.filterMap Happening.answer? = [(t.console.machine.react event).1] ∧
      t'.console.machine = (t.console.machine.react event).2) ∨
    (t.event? deed = none ∧ happening.toList.filterMap Happening.answer? = [] ∧
      (¬deed.IsVisit → t'.console.machine = t.console.machine)) := by
  cases hm with
  | @steps byte _ hc hp hs | @faults byte _ _ hc hp hs =>
    refine .inl ⟨.step byte, by simp [event?, hc, hp], ?_, ?_⟩
    · rw [Machine.react, hs]
      rfl
    · rw [Machine.react, hs]
  | ticks ht hp hb =>
    refine .inl ⟨.tick, by simp [event?, ht, hp], ?_, ?_⟩
    · rw [Machine.react, hb]
      rfl
    · rw [Machine.react, hb]
  | @reports key hd hp => exact .inl ⟨.key key, by simp [event?, hd, hp], rfl, rfl⟩
  | cpuBegins hc | cpuQuits hc | cpuFails hc | cpuRests hc =>
    exact .inr ⟨by simp [event?, hc], rfl, fun _ => rfl⟩
  | cpuLoses hc hp => exact .inr ⟨by simp [event?, hc, hp], rfl, fun _ => rfl⟩
  | timersBegin ht | timersQuit ht | sends ht | timersRest ht =>
    exact .inr ⟨by simp [event?, ht], rfl, fun _ => rfl⟩
  | timersLose ht hp => exact .inr ⟨by simp [event?, ht, hp], rfl, fun _ => rfl⟩
  | displayBegins hd | displayEnds hd | polls hd | renders hd | drains hd | takes hd | beeps hd
  | leaves hd | displayRests hd =>
    exact .inr ⟨by simp [event?, hd], rfl, fun _ => rfl⟩
  | displayLoses hd hp => exact .inr ⟨by simp [event?, hd, hp], rfl, fun _ => rfl⟩
  | stops => exact .inr ⟨rfl, rfl, fun _ => rfl⟩
  | visits => exact .inr ⟨rfl, rfl, fun hv => absurd trivial hv⟩

theorem Move.answers (hm : Move t deed happening t') :
    t.console.machine.answers (t.event? deed).toList =
      happening.toList.filterMap Happening.answer? := by
  rcases hm.event with ⟨event, he, ha, -⟩ | ⟨he, ha, -⟩
  · rw [he, ha]
    rfl
  · rw [he, ha]
    rfl

/-- A move is seen to execute an instruction with some result if it does. -/
theorem Move.mem_results_iff (hm : Move t deed happening t') {result : Except Fault Unit} :
    result ∈ t.console.machine.results (t.event? deed).toList ↔
      happening = some (.stepped result) := by
  rw [Machine.results, hm.answers, Happening.mem_results_iff, Option.mem_toList]

/-- An action changes the machine by its event alone. -/
theorem Move.machine (hm : Move t (.act action) happening t') :
    t'.console.machine = t.console.machine.after (t.event? (.act action)).toList := by
  rcases hm.event with ⟨event, he, -, hs⟩ | ⟨he, -, hs⟩
  · rw [he, hs]
    rfl
  · rw [he, hs id]
    rfl

/-- A move is seen to call the presentation if it does. -/
theorem Move.calls (hm : Move t deed happening t') :
    (t.call? deed).toList = happening.toList.filterMap Happening.call? := by
  cases hm with
  | displayBegins hd | displayEnds hd | polls hd | displayLoses hd | reports hd | renders hd
  | drains hd | takes hd | beeps hd | leaves hd | displayRests hd =>
    simp [call?, Happening.call?, hd, List.filterMap]
  | _ => rfl

theorem Move.keys (hm : Move t deed happening t') :
    keys t.presentation (t.call? deed).toList =
      happening.toList.filterMap Happening.key? := by
  rw [hm.calls]
  cases hm with
  | polls _ hk =>
    change [(pollKey t.presentation).1] = _
    rw [hk]
    rfl
  | _ => rfl

/-- A deed changes the presentation by its call alone. -/
theorem Move.presentation (hm : Move t deed happening t') :
    t'.presentation = after t.presentation (t.call? deed).toList := by
  rw [hm.calls]
  cases hm with
  | polls _ hk =>
    change _ = (pollKey t.presentation).2
    rw [hk]
  | _ => rfl

/-- The presentation is what the calls of a run have made of it. -/
theorem presentation_afterDeeds (t : Timelines P) (deeds : List Deed) :
    (t.afterDeeds deeds).presentation = after t.presentation (t.calls deeds) := by
  induction deeds generalizing t with
  | nil => rfl
  | cons deed deeds ih =>
    obtain ⟨_, hm⟩ := exists_move t deed
    rw [afterDeeds_cons, ih, hm.presentation, calls, after_append]

/-- A machine that nobody visits has lived through the events of the run and has given its
answers to them. -/
theorem machine_afterDeeds (hv : ∀ deed ∈ deeds, ¬deed.IsVisit) :
    (t.afterDeeds deeds).console.machine = t.console.machine.after (t.events deeds) ∧
      t.answers deeds = t.console.machine.answers (t.events deeds) := by
  induction deeds generalizing t with
  | nil => exact ⟨rfl, rfl⟩
  | cons deed deeds ih =>
    obtain ⟨hv, hv'⟩ := List.forall_mem_cons.mp hv
    cases deed with
    | visit machine poisoned => exact absurd trivial hv
    | act action =>
      obtain ⟨hm, ha⟩ := ih hv' (t := t.meet (.act action))
      have he : (t.meet (.act action)).console.machine = _ := (move_act t action).machine
      rw [he] at hm ha
      constructor
      · rw [afterDeeds_cons, hm, events, Machine.after_append]
      · rw [answers, ha, events, Machine.answers_append]

end Timelines

end HexConsole
