import HexConsole.Machine.Program
import HexConsole.Proofs.Ending
import HexConsole.Proofs.Traces
import HexConsole.Recorder
import HexConsole.Schedule.Reach
import Mathlib.Control.Monad.Basic
import Mathlib.Data.List.Nodup

/-! # The stop flag

A timeline that finds the stop flag set ends, so after it was set each finishes the turn it is
in and begins no other. The display sets it when it ends, and so does a run that gets no thread
for its timers, so no run returns before it is set unless it has not begun at all. A run that
finds it set from the beginning only ends.
-/

namespace HexConsole

open Presentation

/-- What the timelines do once in each of their turns. -/
inductive Duty where
  | step
  | tick
  | poll
  | report
  | render
  deriving DecidableEq, Repr

/-- The duty that is an event for the machine. -/
def Machine.Event.duty : Machine.Event → Duty
  | step _ => .step
  | tick => .tick
  | key _ => .report

/-- The duty that is a call of the presentation. -/
def Presentation.Call.duty? : Call → Option Duty
  | poll => some .poll
  | render _ => some .render
  | beep => none

/-- The duties that the turn of a timeline still has. -/
def CpuPhase.duties : CpuPhase → List Duty
  | stepping => [.step]
  | checking | failing _ | done _ => []

def TimerPhase.duties : TimerPhase → List Duty
  | ticking => [.tick]
  | checking | sending | done _ => []

def DisplayPhase.duties : DisplayPhase → List Duty
  | polling => [.poll, .report, .render]
  | exchanging _ => [.report, .render]
  | rendering _ => [.render]
  | checking | draining | beeping | leaving _ | done _ => []

namespace Timelines

variable {P : Type} [Presentation P] {t t' : Timelines P} {deed : Deed} {deeds : List Deed}
  {happening : Option Happening}

/-- The duties that the turns still have. -/
def duties (t : Timelines P) : List Duty := t.cpu.duties ++ t.timers.duties ++ t.display.duties

/-- The duties that are done in a deed. -/
def dutiesOf (t : Timelines P) (deed : Deed) : List Duty :=
  (t.event? deed).toList.map Machine.Event.duty ++ (t.call? deed).toList.filterMap Call.duty?

/-- The duties that are done in a row of deeds, those towards the machine first. -/
def fulfilled (t : Timelines P) (deeds : List Deed) : List Duty :=
  (t.events deeds).map Machine.Event.duty ++ (t.calls deeds).filterMap Call.duty?

/-- Nothing is left of a run but to end. -/
structure Idle (t : Timelines P) : Prop where
  stopped : t.console.stopped = true
  cpu : t.cpu = .checking ∨ t.cpu = .done (.ok ())
  timers : t.timers = .checking ∨ t.timers = .done (.ok ())
  display : t.display = .checking ∨ t.display = .leaving (.ok ()) ∨ t.display = .done (.ok ())

/-- Neither the machine nor the presentation is used, only those outside change the console, and
the run returns success, or else why it did not get a thread, at the latest when every timeline
has acted twice. -/
structure Frozen (t : Timelines P) (deeds : List Deed) : Prop where
  events : t.events deeds = []
  calls : t.calls deeds = []
  console : (t.afterDeeds deeds).console = t.console.afterVisits deeds
  presentation : (t.afterDeeds deeds).presentation = t.presentation
  result : ∀ result, (t.afterDeeds deeds).result? = some result →
    result = match t.refusal with
      | none => .ok ()
      | some fault => .error fault
  returns : (∀ timeline : Timeline, 2 ≤ timeline.count deeds) →
    ∃ result, (t.afterDeeds deeds).result? = some result

/-- What is done in a deed that begins no turn was a duty of one. -/
theorem Move.count_duties (hm : Move t deed happening t') (hs : t.console.stopped = true)
    (duty : Duty) : (t.dutiesOf deed).count duty + t'.duties.count duty ≤ t.duties.count duty := by
  -- the duties of the two timelines whose action it is not stay and cancel
  unfold duties dutiesOf
  simp only [List.count_append]
  cases hm with
  | cpuBegins _ h | timersBegin _ h | displayBegins _ h =>
    rw [hs] at h
    cases h
  | cpuQuits hp | cpuFails hp | cpuRests hp => simp [event?, call?, hp, CpuPhase.duties]
  | cpuLoses hp hl => simp [event?, call?, hp, hl, CpuPhase.duties]
  | steps hp hl | faults hp hl =>
    simp [event?, call?, hp, hl, CpuPhase.duties, Machine.Event.duty, Nat.add_assoc]
  | timersQuit hp | sends hp | timersRest hp => simp [event?, call?, hp, TimerPhase.duties]
  | timersLose hp hl => simp [event?, call?, hp, hl, TimerPhase.duties]
  | @ticks beep _ hp hl =>
    cases beep <;> simp [event?, call?, hp, hl, TimerPhase.duties, Machine.Event.duty] <;> omega
  | displayLoses hp hl => simp [event?, call?, hp, hl, DisplayPhase.duties]
  | reports hp hl =>
    simp [event?, call?, hp, hl, DisplayPhase.duties, Machine.Event.duty, List.count_cons]
    omega
  | polls hp =>
    simp [event?, call?, hp, DisplayPhase.duties, Call.duty?, List.count_cons]
    omega
  | renders hp =>
    simp [event?, call?, hp, DisplayPhase.duties, Call.duty?]
    omega
  | displayEnds hp | drains hp | takes hp | beeps hp | leaves hp | displayRests hp =>
    simp [event?, call?, hp, DisplayPhase.duties, Call.duty?, List.filterMap]
  | stops | visits => simp [event?, call?]

/-- Every duty is done at most as often as it was left. -/
theorem count_fulfilled_le (hs : t.console.stopped = true) (deeds : List Deed) (duty : Duty) :
    (t.fulfilled deeds).count duty ≤ t.duties.count duty := by
  induction deeds generalizing t with
  | nil => exact Nat.zero_le _
  | cons deed deeds ih =>
    obtain ⟨_, hm⟩ := exists_move t deed
    have hd := hm.count_duties hs duty
    have ha := ih (hm.stopped hs)
    simp only [dutiesOf, fulfilled, events, calls, List.map_append, List.filterMap_append,
      List.count_append] at hd ha ⊢
    omega

omit [Presentation P] in
theorem duties_sublist (t : Timelines P) :
    t.duties.Sublist [.step, .tick, .poll, .report, .render] := by
  have hc : t.cpu.duties.Sublist [.step] := by cases t.cpu <;> simp [CpuPhase.duties]
  have ht : t.timers.duties.Sublist [.tick] := by cases t.timers <;> simp [TimerPhase.duties]
  have hd : t.display.duties.Sublist [.poll, .report, .render] := by
    cases t.display <;> simp [DisplayPhase.duties]
  exact (hc.append ht).append hd

/-- After the stop flag was set no timeline does a duty twice. -/
theorem nodup_fulfilled (hs : t.console.stopped = true) (deeds : List Deed) :
    (t.fulfilled deeds).Nodup := by
  have hd : t.duties.Nodup := (duties_sublist t).nodup (by decide)
  rw [List.nodup_iff_count_le_one] at hd ⊢
  intro duty
  exact Nat.le_trans (count_fulfilled_le hs deeds duty) (hd duty)

theorem stopped_afterDeeds (hs : t.console.stopped = true) (deeds : List Deed) :
    (t.afterDeeds deeds).console.stopped = true :=
  afterDeeds_induction (fun _ _ _ _ hm _ => hm.stopped) hs deeds fun _ _ => trivial

theorem Move.stopped_of_done (hm : Move t deed happening t')
    (h : ∀ result, t.display = .done result → t.console.stopped = true) :
    ∀ result, t'.display = .done result → t'.console.stopped = true := by
  intro result hd
  cases hm with
  | displayBegins | displayEnds | polls | displayLoses | reports | renders | drains | takes
  | beeps => cases hd
  | leaves | stops | cpuFails => rfl
  | _ => exact h result hd

/-- No run that has begun returns before the stop flag is set. -/
theorem stopped_of_result {threads : Threads} {console : Console} {presentation : P}
    {run : Timelines P} {result : Except Fault Unit}
    (hl : launch threads console presentation = .ok run)
    (hr : (run.afterDeeds deeds).result? = some result) :
    (run.afterDeeds deeds).console.stopped = true := by
  have hs : ∀ result, run.display = .done result → run.console.stopped = true := by
    obtain ⟨-, -, ⟨-, rfl⟩ | ⟨_, -, rfl⟩⟩ := launch_eq_ok_iff.mp hl
    · exact nofun
    · exact nofun
  have ha := afterDeeds_induction (fun _ _ _ _ hm _ => hm.stopped_of_done) hs deeds
    fun _ _ => trivial
  obtain ⟨-, -, display, -, -, hd, -⟩ := result?_eq_some_iff.mp hr
  exact ha display hd

theorem Move.idle (hm : Move t deed happening t') (hi : t.Idle) :
    t.event? deed = none ∧ t.call? deed = none ∧ t'.Idle ∧
      t'.console = t.console.visited deed ∧ t'.presentation = t.presentation := by
  -- who sets the flag again does not change the console
  have hc : { t.console with stopped := true } = t.console := by rw [← hi.stopped]
  cases hm with
  | cpuBegins _ h | timersBegin _ h | displayBegins _ h =>
    rw [hi.stopped] at h
    cases h
  | cpuLoses h | steps h | faults h | cpuFails h =>
    rcases hi.cpu with h' | h' <;> cases h.symm.trans h'
  | timersLose h | ticks h | sends h =>
    rcases hi.timers with h' | h' <;> cases h.symm.trans h'
  | polls h | displayLoses h | reports h | renders h | drains h | takes h | beeps h =>
    rcases hi.display with h' | h' | h' <;> cases h.symm.trans h'
  | cpuQuits h =>
    exact ⟨by simp [event?, h], rfl, ⟨hi.stopped, .inr rfl, hi.timers, hi.display⟩, rfl, rfl⟩
  | timersQuit h =>
    exact ⟨by simp [event?, h], rfl, ⟨hi.stopped, hi.cpu, .inr rfl, hi.display⟩, rfl, rfl⟩
  | displayEnds h =>
    exact ⟨by simp [event?, h], by simp [call?, h],
      ⟨hi.stopped, hi.cpu, hi.timers, .inr (.inl rfl)⟩, rfl, rfl⟩
  | leaves h =>
    have he : t.event? (.act .display) = none := by simp [event?, h]
    have hcall : t.call? (.act .display) = none := by simp [call?, h]
    rcases hi.display with h' | h' | h' <;> cases h.symm.trans h'
    exact ⟨he, hcall, ⟨rfl, hi.cpu, hi.timers, .inr (.inr rfl)⟩, hc, rfl⟩
  | stops => exact ⟨rfl, rfl, ⟨rfl, hi.cpu, hi.timers, hi.display⟩, hc, rfl⟩
  | cpuRests h => exact ⟨by simp [event?, h], rfl, hi, rfl, rfl⟩
  | timersRest h => exact ⟨by simp [event?, h], rfl, hi, rfl, rfl⟩
  | displayRests h => exact ⟨by simp [event?, h], by simp [call?, h], hi, rfl, rfl⟩
  | visits => exact ⟨rfl, rfl, ⟨hi.stopped, hi.cpu, hi.timers, hi.display⟩, rfl, rfl⟩

theorem Idle.afterDeeds (hi : t.Idle) (deeds : List Deed) :
    t.events deeds = [] ∧ t.calls deeds = [] ∧ (t.afterDeeds deeds).Idle ∧
      (t.afterDeeds deeds).console = t.console.afterVisits deeds ∧
      (t.afterDeeds deeds).presentation = t.presentation := by
  induction deeds generalizing t with
  | nil => exact ⟨rfl, rfl, hi, rfl, rfl⟩
  | cons deed deeds ih =>
    obtain ⟨_, hm⟩ := exists_move t deed
    obtain ⟨he, hcall, hi', hc, hp⟩ := hm.idle hi
    obtain ⟨he', hcall', hi'', hc', hp'⟩ := ih hi'
    refine ⟨?_, ?_, hi'', ?_, hp'.trans hp⟩
    · rw [events, he, he']
      rfl
    · rw [calls, hcall, hcall']
      rfl
    · rw [afterDeeds_cons, hc', hc]
      rfl

theorem refusal_afterDeeds (t : Timelines P) (deeds : List Deed) :
    (t.afterDeeds deeds).refusal = t.refusal :=
  afterDeeds_induction (fun _ _ _ _ hm _ h => hm.refusal.trans h) rfl deeds fun _ _ => trivial

omit [Presentation P] in
theorem Idle.result_eq {result : Except Fault Unit} (hi : t.Idle)
    (hr : t.result? = some result) :
    result = match t.refusal with
      | none => .ok ()
      | some fault => .error fault := by
  obtain ⟨cpu, timers, display, hc, ht, hd, rfl⟩ := result?_eq_some_iff.mp hr
  rcases hi.cpu with h | h <;> cases hc.symm.trans h
  rcases hi.timers with h | h <;> cases ht.symm.trans h
  rcases hi.display with h | h | h <;> cases hd.symm.trans h
  cases t.refusal <;> rfl

omit [Presentation P] in
theorem Idle.left_le (hi : t.Idle) (timeline : Timeline) : t.left timeline ≤ 2 := by
  cases timeline with
  | cpu =>
    change t.cpu.left ≤ 2
    rcases hi.cpu with h | h <;> rw [h] <;> decide
  | timers =>
    change t.timers.left ≤ 2
    rcases hi.timers with h | h <;> rw [h] <;> decide
  | display =>
    change t.display.left _ ≤ 2
    rcases hi.display with h | h | h <;> rw [h] <;> simp [DisplayPhase.left]

theorem Idle.frozen (hi : t.Idle) (deeds : List Deed) : t.Frozen deeds := by
  obtain ⟨he, hcall, hi', hc, hp⟩ := hi.afterDeeds deeds
  refine ⟨he, hcall, hc, hp, fun result hr => ?_, fun ha => ?_⟩
  · rw [hi'.result_eq hr, refusal_afterDeeds]
  · exact returns_of_stopped hi.stopped fun timeline =>
      Nat.le_trans (hi.left_le timeline) (ha timeline)

omit [Presentation P] in
/-- A run that finds the stop flag set has nothing left but to end. -/
theorem idle_of_launch {threads : Threads} {console : Console} {presentation : P}
    {run : Timelines P} (hl : launch threads console presentation = .ok run)
    (hs : console.stopped = true) : run.Idle := by
  obtain ⟨-, -, ⟨-, rfl⟩ | ⟨_, -, rfl⟩⟩ := launch_eq_ok_iff.mp hl
  · exact ⟨hs, .inl rfl, .inl rfl, .inl rfl⟩
  · exact ⟨hs, .inl rfl, .inr rfl, .inr (.inl rfl)⟩

/-- The stop flag is set by the processor after a fault, by the display at its end and from
outside, and never cleared. After that no timeline does a duty of its turn twice, where the
duties are events and calls, by which alone a run changes the machine and the presentation.
When a run that has begun returns, the flag is set and the processor and the timers are done.
Whatever happens to the machine and its lock between two runs and during them, a later run with
any presentation does nothing and returns success, unless it does not get its threads, and then
it does nothing either. -/
theorem stop_freezes {threads : Threads} {console : Console} {presentation : P}
    {run : Timelines P} (hl : launch threads console presentation = .ok run)
    (hr : run.Reaches t) :
    (∀ deed, (t.meet deed).console.stopped = true ↔
      t.console.stopped = true ∨ t.Stops deed) ∧
    (t.console.stopped = true → ∀ deeds, (t.afterDeeds deeds).console.stopped = true ∧
      (t.fulfilled deeds).Nodup) ∧
    (∀ deeds, (t.afterDeeds deeds).presentation = after t.presentation (t.calls deeds) ∧
      ((∀ deed ∈ deeds, ¬deed.IsVisit) →
        (t.afterDeeds deeds).console.machine = t.console.machine.after (t.events deeds))) ∧
    ∀ result, t.result? = some result →
      t.console.stopped = true ∧ (∃ result, t.cpu = .done result) ∧
      (∃ result, t.timers = .done result) ∧
      ∀ {Q : Type} [Presentation Q] (later : Console) (presentation : Q),
        later.rates = t.console.rates → later.stopped = true →
        launch .started later presentation = .ok (start later presentation) ∧
        ∀ threads run, launch threads later presentation = .ok run →
          ∀ deeds, run.Frozen deeds := by
  obtain ⟨before, rfl⟩ := hr
  refine ⟨fun deed => ?_, fun hs deeds => ?_, fun deeds => ?_, fun result hr => ?_⟩
  · obtain ⟨_, hm⟩ := exists_move (run.afterDeeds before) deed
    exact hm.stopped_iff
  · exact ⟨stopped_afterDeeds hs deeds, nodup_fulfilled hs deeds⟩
  · exact ⟨presentation_afterDeeds _ deeds, fun hv => (machine_afterDeeds hv).1⟩
  · obtain ⟨cpu, timers, -, hc, ht, -⟩ := result?_eq_some_iff.mp hr
    refine ⟨stopped_of_result hl hr, ⟨cpu, hc⟩, ⟨timers, ht⟩, ?_⟩
    intro Q _ later presentation' hrates hs
    have hv : later.rates.validate = .ok () := by
      have hb : (run.afterDeeds before).console.rates = run.console.rates :=
        afterDeeds_induction (fun _ _ _ _ hm _ h => hm.rates.trans h) rfl before
          fun _ _ => trivial
      rw [hrates, hb]
      obtain ⟨hv, -, ⟨-, rfl⟩ | ⟨_, -, rfl⟩⟩ := launch_eq_ok_iff.mp hl
      · exact hv
      · exact hv
    refine ⟨launch_started_iff.mpr ⟨hv, rfl⟩, ?_⟩
    exact fun threads run hl deeds => (idle_of_launch hl hs).frozen deeds

/-- The display ends while an instruction and a tick are still to come, and somebody changes the
machine before they do. -/
theorem stop_freezes_closed_recorder :
    let console := Console.ofMachine (.ofProgram [0x60, 0x01]) .standard
    let run := start console (Recorder.ofScript [] (some 0))
    let stopped := run.afterDeeds [.act (.cpu 0), .act .timers, .act .display, .act .display]
    let since : List Deed := [.visit (.ofProgram [0x61, 0x02]) false, .act (.cpu 0),
      .act .timers, .act .timers, .act (.cpu 0)]
    let ended := stopped.afterDeeds since
    stopped.console.stopped = true ∧ (stopped.fulfilled since).Nodup ∧
      ended.result? = some (.ok ()) ∧
      ∀ deeds, (start ended.console Recorder.empty).Frozen deeds := by
  intro console run stopped since ended
  have hl : launch .started console (Recorder.ofScript [] (some 0)) = .ok run := rfl
  have hs : stopped.console.stopped = true := by decide +kernel
  have hr : ended.result? = some (.ok ()) := by decide +kernel
  obtain ⟨-, hd, -⟩ := stop_freezes hl ⟨_, rfl⟩ (t := stopped)
  obtain ⟨-, -, -, hf⟩ := stop_freezes hl (.trans ⟨_, rfl⟩ ⟨_, rfl⟩) (t := ended)
  obtain ⟨he, -, -, hf⟩ := hf _ hr
  obtain ⟨hl', hf⟩ := hf ended.console Recorder.empty rfl he
  exact ⟨hs, (hd hs _).2, hr, hf _ _ hl'⟩

/-- A run that does not get the processor's thread returns before anybody has set the stop flag,
and a later run executes an instruction. -/
theorem stop_freezes_refused :
    let console := Console.ofMachine (.ofProgram [0x60, 0x01]) .standard
    let reason := "Resource temporarily unavailable (os error 11)"
    let later := start console Recorder.empty
    launch ⟨.error reason, .ok ()⟩ console Recorder.empty = .error (.unreadable reason) ∧
      console.stopped = false ∧ launch .started console Recorder.empty = .ok later ∧
      later.steps [.act (.cpu 0), .act (.cpu 0)] = [.ok ()] := by
  intro console reason later
  exact ⟨rfl, rfl, rfl, by decide +kernel⟩

end Timelines

end HexConsole
