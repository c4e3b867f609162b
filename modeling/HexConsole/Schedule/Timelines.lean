import HexConsole.Machine.Step
import HexConsole.Presentation
import HexConsole.Rates

/-! # The running console

Three timelines share one machine. The processor executes instructions, the timers tick, and
the display reads the keypad, shows the frame and plays the beeps that the timers sent. The
machine is locked for one step, one tick or one exchange at a time, so these are the actions
in which the timelines interleave, together with looking at the stop flag, setting it, and
passing beeps on. A lock whose owner crashed is poisoned, and nobody gets it any more.

The display has the caller's thread. The processor and the timers need threads of their own,
which the operating system may refuse, and then the run only takes back what it has begun.
-/

namespace HexConsole

/-- What the timelines share and what outlives a run. -/
structure Console where
  machine : Machine
  rates : Rates
  poisoned : Bool
  stopped : Bool

/-- A console that has not run yet. -/
def Console.ofMachine (machine : Machine) (rates : Rates) : Console :=
  ⟨machine, rates, false, false⟩

/-- Where the processor is in its turn. -/
inductive CpuPhase where
  /-- The stop flag is looked at next. -/
  | checking
  /-- An instruction is executed next. -/
  | stepping
  /-- An instruction failed and the others are to be stopped. -/
  | failing (fault : Fault)
  | done (result : Except Fault Unit)

/-- The processor rests between two turns, and after the last. -/
def CpuPhase.rests : CpuPhase → Bool
  | checking | done _ => true
  | stepping | failing _ => false

/-- Where the timers are in their turn. -/
inductive TimerPhase where
  /-- The stop flag is looked at next. -/
  | checking
  /-- The timers are counted down next. -/
  | ticking
  /-- The sound timer ran out and the display is to be told. -/
  | sending
  | done (result : Except Fault Unit)

/-- The timers rest between two turns, and after the last. -/
def TimerPhase.rests : TimerPhase → Bool
  | checking | done _ => true
  | ticking | sending => false

/-- Where the display is in its turn. -/
inductive DisplayPhase where
  /-- The stop flag and the presentation are looked at next. -/
  | checking
  /-- The keypad is read next. -/
  | polling
  /-- The key is reported and the frame is fetched next. -/
  | exchanging (key : Key)
  /-- The frame is shown next. -/
  | rendering (frame : Screen)
  /-- A beep is taken from the queue next, if there is one. -/
  | draining
  /-- A beep was taken and is played next. -/
  | beeping
  /-- The display has ended and the others are to be stopped. -/
  | leaving (result : Except Fault Unit)
  | done (result : Except Fault Unit)

/-- The display rests between two turns, and after the last. -/
def DisplayPhase.rests : DisplayPhase → Bool
  | checking | done _ => true
  | _ => false

/-- What the operating system answers to a run that asks for its threads: it starts one, or
says why it does not. -/
structure Threads where
  cpu : Except String Unit
  timers : Except String Unit

/-- Both threads start. -/
def Threads.started : Threads := ⟨.ok (), .ok ()⟩

/-- The timelines of a run with what they share: the console, the beeps sent and not yet
taken, and the presentation; and the fault with which the run will end in any case, if it has
not got the timers' thread. -/
structure Timelines (P : Type) where
  console : Console
  cpu : CpuPhase
  timers : TimerPhase
  display : DisplayPhase
  queued : Nat
  presentation : P
  refusal : Option Fault

/-- Whose action comes next; the byte is the one that an instruction would draw. -/
inductive Action where
  | cpu (byte : UInt8)
  | timers
  | display
  /-- Somebody outside sets the stop flag. -/
  | stop
  deriving DecidableEq

/-- What can be seen of an action. -/
inductive Happening where
  /-- An instruction was executed, or failed. -/
  | stepped (result : Except Fault Unit)
  /-- The processor stopped the others because of a fault. -/
  | failed (fault : Fault)
  | ticked (beep : Bool)
  | polled (key : Key)
  /-- A key was reported to the machine. -/
  | reported (key : Key)
  | rendered (frame : Screen)
  | beeped

namespace Timelines

variable {P : Type} [Presentation P]

/-- A run begins with every timeline at the start of its turn. -/
def start (console : Console) (presentation : P) : Timelines P :=
  ⟨console, .checking, .checking, .checking, 0, presentation, none⟩

/-- A run without a thread for the timers: the processor has its own by then, and nothing is
left to do than to stop it and to wait for its end. -/
def abandon (console : Console) (presentation : P) (fault : Fault) : Timelines P :=
  { start console presentation with
    timers := .done (.ok ())
    display := .leaving (.ok ())
    refusal := some fault }

/-- A run begins unless a rate is zero or the processor gets no thread; then it returns at once
and leaves everything as it was. -/
def launch (threads : Threads) (console : Console) (presentation : P) :
    Except Fault (Timelines P) := do
  console.rates.validate
  threads.cpu.mapError .unreadable
  match threads.timers with
  | .ok () => return start console presentation
  | .error reason => return abandon console presentation (.unreadable reason)

/-- An action of the processor. -/
def actCpu (s : Timelines P) (byte : UInt8) : Option Happening × Timelines P :=
  match s.cpu with
  | .checking =>
    (none, { s with cpu := if s.console.stopped then .done (.ok ()) else .stepping })
  | .stepping =>
    if s.console.poisoned then (none, { s with cpu := .failing .poisoned })
    else
      let (result, machine) := s.console.machine.step byte
      let cpu := match result with
        | .ok () => .checking
        | .error fault => .failing fault
      (some (.stepped result), { s with console := { s.console with machine }, cpu })
  | .failing fault =>
    (some (.failed fault), { s with
      console := { s.console with stopped := true }
      cpu := .done (.error fault) })
  | .done _ => (none, s)

/-- An action of the timers. -/
def actTimers (s : Timelines P) : Option Happening × Timelines P :=
  match s.timers with
  | .checking =>
    (none, { s with timers := if s.console.stopped then .done (.ok ()) else .ticking })
  | .ticking =>
    if s.console.poisoned then (none, { s with timers := .done (.error .poisoned) })
    else
      let (beep, machine) := s.console.machine.tick
      (some (.ticked beep), { s with
        console := { s.console with machine }
        timers := if beep then .sending else .checking })
  | .sending => (none, { s with queued := s.queued + 1, timers := .checking })
  | .done _ => (none, s)

/-- An action of the display. -/
def actDisplay (s : Timelines P) : Option Happening × Timelines P :=
  match s.display with
  | .checking =>
    let ended := s.console.stopped || Presentation.closed s.presentation
    (none, { s with display := if ended then .leaving (.ok ()) else .polling })
  | .polling =>
    let (key, presentation) := Presentation.pollKey s.presentation
    (some (.polled key), { s with presentation, display := .exchanging key })
  | .exchanging key =>
    if s.console.poisoned then (none, { s with display := .leaving (.error .poisoned) })
    else
      let machine := s.console.machine.setKey key
      (some (.reported key), { s with
        console := { s.console with machine }
        display := .rendering machine.state.screen })
  | .rendering frame =>
    (some (.rendered frame), { s with
      presentation := Presentation.render s.presentation frame
      display := .draining })
  | .draining =>
    match s.queued with
    | 0 => (none, { s with display := .checking })
    | queued + 1 => (none, { s with queued, display := .beeping })
  | .beeping =>
    (some .beeped, { s with
      presentation := Presentation.beep s.presentation
      display := .draining })
  | .leaving result =>
    (none, { s with console := { s.console with stopped := true }, display := .done result })
  | .done _ => (none, s)

/-- One action; a timeline that is done does nothing any more. -/
def act (s : Timelines P) : Action → Option Happening × Timelines P
  | .cpu byte => s.actCpu byte
  | .timers => s.actTimers
  | .display => s.actDisplay
  | .stop => (none, { s with console := { s.console with stopped := true } })

/-- The timelines after a row of actions. -/
def afterActs (s : Timelines P) (actions : List Action) : Timelines P :=
  actions.foldl (fun s action => (s.act action).2) s

/-- What can be seen of a row of actions. -/
def happenings (s : Timelines P) : List Action → List Happening
  | [] => []
  | action :: actions =>
    let (happening, s) := s.act action
    happening.toList ++ s.happenings actions

/-- Actions of one kind until somebody rests, at most so many of them. -/
def actUntil (rests : Timelines P → Bool) (action : Action) : Nat → Timelines P → Timelines P
  | 0, s => s
  | count + 1, s =>
    let s := (s.act action).2
    if rests s then s else actUntil rests action count s

/-- What a run returns whose timelines have ended with these results: why it did not get a
thread, or else the first fault of the processor, the timers and the display. -/
def verdict (refusal : Option Fault) (cpu timers display : Except Fault Unit) :
    Except Fault Unit :=
  match refusal with
  | some fault => .error fault
  | none => cpu.bind fun _ => timers.bind fun _ => display

/-- The result of a run once all timelines are done. -/
def result? (s : Timelines P) : Option (Except Fault Unit) :=
  match s.cpu, s.timers, s.display with
  | .done cpu, .done timers, .done display => some (verdict s.refusal cpu timers display)
  | _, _, _ => none

end Timelines

end HexConsole
